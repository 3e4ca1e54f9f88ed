import Classpath.Proofs.Assembly.Identity
import Classpath.Proofs.Model.Roundtrip
import Mathlib.Control.Monad.Basic

namespace Classpath.Model

/-! # Identities in models that are read

The sets of a model are read from tokens, and a token names a complete key or none. Artifacts are
read from records of texts, and nothing is asked of these texts. So a model can be read from some
text exactly if the keys in its sets are complete: its artifacts may lack a group, a name, a
packaging or a version, or have a delimiter in a coordinate, which no assembly would have let
through. -/

/-- The models that can be read are those with complete keys, whatever their artifacts are. -/
theorem exists_text_iff {m : Model} : (∃ text, ofToml text = .ok m) ↔ m.KeysComplete := by
  constructor
  · rintro ⟨text, htext⟩
    exact keysComplete_of_ofToml htext
  · intro hkeys
    exact ⟨m.toToml, ofToml_toToml hkeys⟩

/-- An application artifact without a group and a version and with a delimiter in its name, and a
dependency without a packaging and with a delimiter in its classifier. -/
def namelessText : String :=
  "format_version = 1\n\n[model.app_artifact]\ngroup = \"\"\nname = \"a:b\"\nversion = \"\"\n\n" ++
    "[[model.runtime_deps]]\ngroup = \"g\"\nname = \"n\"\nclassifier = \"x:y\"\ntype = \"\"\n" ++
    "version = \"1\"\n"

def nameless : Model where
  parentFirst := ∅
  runnerParentFirst := ∅
  lesserPriority := ∅
  localProject := ∅
  application := ⟨⟨"", "a:b", "", "jar"⟩, ""⟩
  properties := ∅
  runtime := [⟨⟨⟨"g", "n", "x:y", ""⟩, "1"⟩, "compile", false, false⟩]
  deployment := []
  fullDeployment := []

/-- Reading lets artifacts through that have no identity. -/
theorem ofToml_namelessText :
    ofToml namelessText = .ok nameless ∧ ¬ nameless.application.Resolved ∧
      ∀ d ∈ nameless.runtime, ¬ d.artifact.Resolved := by
  have hread : ofToml namelessText = .ok nameless := by decide +kernel
  exact ⟨hread, by decide, by decide⟩

end Classpath.Model
