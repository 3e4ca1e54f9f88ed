import Classpath.Proofs.Assembly.Runs
import Classpath.Proofs.Model.Roundtrip

namespace Classpath.Model

/-! # Transport of models

The models that a program ever holds are those that it built and those that it read, and all of them
have complete keys: the checks and the tokens see to it on the one way, the tokens on the other. So
every one of them comes back from its text. -/

open Toml (WritableTable)

/-- A model that calls on a new assembly built, or that was read from a text. -/
inductive Obtained : Model → Prop where
  | built {calls : List Assembly.Call} {m : Model}
      (h : (Assembly.empty.run calls).1.freeze = .ok m) : Obtained m
  | read {text : String} {m : Model} (h : ofToml text = .ok m) : Obtained m

theorem Obtained.keysComplete {m : Model} (h : Obtained m) : m.KeysComplete := by
  cases h with
  | built h => exact Assembly.keysComplete_freeze (Assembly.sound_empty.run _) h
  | read h => exact keysComplete_of_ofToml h

/-- Every model has a text, and the text stands for this model and no other one, alone and below the
line that a file has above it. Writing what was read gives the same text and fingerprint. -/
theorem transport_lossless {m : Model} (h : Obtained m) :
    WritableTable m.envelope ∧ ofToml m.toToml = .ok m ∧ ofToml m.fileText = .ok m ∧
      ∀ text ∈ [m.toToml, m.fileText], ∀ decoded, ofToml text = .ok decoded →
        decoded.toToml = m.toToml ∧ decoded.fingerprint = m.fingerprint := by
  have htext : ofToml m.toToml = .ok m := ofToml_toToml h.keysComplete
  have hfile : ofToml m.fileText = .ok m := ofToml_fileText h.keysComplete
  refine ⟨m.writable_envelope, htext, hfile, ?_⟩
  intro text hmem decoded hdecoded
  have hsame : ofToml text = .ok m := by
    simp only [List.mem_cons, List.not_mem_nil, or_false] at hmem
    rcases hmem with rfl | rfl
    · exact htext
    · exact hfile
  have heq : decoded = m := Except.ok.inj (hdecoded.symm.trans hsame)
  rw [heq]
  exact ⟨rfl, rfl⟩

/-- Calls with quotes, backslashes, line breaks, controls and empty texts. -/
def awkwardCalls : List Assembly.Call :=
  [.addKey .localProject ⟨"x y", "\"", "", "\\"⟩,
   .setApplication ⟨⟨"a\"b'c", "\\\n\r\t", "", "\u0001"⟩, "'''\"\"\""⟩,
   .addProperties [("", "\n"), ("k.\"", "\\u0000")],
   .addDependency .runtime ⟨⟨.plain "g" "n", "1"⟩, "", false, true⟩,
   .merge "e" (.ofList [("parent-first-artifacts", "p:q, é:#:[")])]

theorem transport_lossless_awkward :
    (Assembly.empty.run awkwardCalls).2 = [.done, .done, .done, .done, .applied] ∧
      ∃ m, (Assembly.empty.run awkwardCalls).1.freeze = .ok m ∧ ofToml m.toToml = .ok m := by
  refine ⟨by decide, ?_⟩
  obtain ⟨m, hm⟩ : ∃ m, (Assembly.empty.run awkwardCalls).1.freeze = .ok m := ⟨_, rfl⟩
  exact ⟨m, hm, (transport_lossless (.built hm)).2.1⟩

end Classpath.Model
