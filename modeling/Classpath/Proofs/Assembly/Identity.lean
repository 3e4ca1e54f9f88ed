import Classpath.Proofs.Assembly.Runs

namespace Classpath

/-! # Identities

Keys and artifacts are put together from any texts, and nothing about their type keeps a delimiter
out of a coordinate or a version in. It is the calls that see to it: at every point of a run, all
that an assembly holds has an identity, and so has all that a model takes over from it. -/

/-- Everything in a model has an identity: artifacts are resolved, and keys are complete. -/
structure Model.Sound (m : Model) : Prop where
  application : m.application.Resolved
  dependencies : ∀ list, ∀ d ∈ m.dependencies list, d.artifact.Resolved
  keys : ∀ keys ∈ [m.parentFirst, m.runnerParentFirst, m.lesserPriority, m.localProject],
    ∀ k ∈ keys, k.Complete

namespace Assembly

theorem application_freeze {a : Assembly} {m : Model} (h : a.freeze = .ok m) :
    a.application = some m.application := by
  rw [freeze] at h
  split at h
  next => exact absurd h (by simp)
  next application happlication =>
    cases h
    exact happlication

/-- Freezing leaves something out, but it never brings anything in. -/
theorem Sound.freeze {a : Assembly} (ha : a.Sound) {m : Model} (h : a.freeze = .ok m) :
    m.Sound := by
  constructor
  · exact ha.application m.application (application_freeze h)
  · intro list d hd
    rw [dependencies_freeze h] at hd
    have hmem : d ∈ a.dependencies list := (List.mem_filter.1 hd).1
    exact ha.dependencies list d hmem
  · exact keysComplete_freeze ha h

/-! ## On the way of a run -/

/-- The assemblies that a run goes through, from the one before it to the one after it. -/
def visited (a : Assembly) : List Call → List Assembly
  | [] => [a]
  | call :: calls => a :: (a.apply call).1.visited calls

theorem run_mem_visited (a : Assembly) (calls : List Call) : (a.run calls).1 ∈ a.visited calls := by
  induction calls generalizing a with
  | nil => exact List.mem_singleton_self a
  | cons call calls ih => exact List.mem_cons_of_mem a (ih _)

theorem Sound.visited {a : Assembly} (ha : a.Sound) (calls : List Call) :
    ∀ b ∈ a.visited calls, b.Sound := by
  induction calls generalizing a with
  | nil =>
    intro b hb
    rw [List.mem_singleton.1 hb]
    exact ha
  | cons call calls ih =>
    intro b hb
    rcases List.mem_cons.1 hb with rfl | hb
    · exact ha
    · exact ih (ha.step (step_apply a call)) b hb

/-- At every point of a run, everything in the assembly has an identity, and so has everything in
the model that is made from it there. -/
theorem visited_identified (calls : List Call) :
    ∀ a ∈ empty.visited calls, a.Sound ∧ ∀ m, a.freeze = .ok m → m.Sound := by
  intro a ha
  have hsound : a.Sound := sound_empty.visited calls a ha
  exact ⟨hsound, fun m hm => hsound.freeze hm⟩

/-- Keys and artifacts with empty coordinates and with delimiters, each beside one that is accepted,
and a descriptor that brings its keys past the checks. -/
def doubtfulCalls : List Call :=
  [.addKeys .localProject [.plain "g" "a", ⟨"g", "b", "", ""⟩],
   .addKey .localProject ⟨"g", "a", "x", "zip"⟩,
   .setApplication ⟨.plain "g:h" "app", "1"⟩,
   .setApplication ⟨.plain "g" "app", "1:2"⟩,
   .addDependency .runtime (.ofArtifact ⟨⟨"g", "a", "x:y", "jar"⟩, "1"⟩),
   .addDependency .runtime (.ofArtifact ⟨.plain "g" "a", "1"⟩),
   .merge "e" (.ofList [("lesser-priority-artifacts", " g:b:: , ")])]

theorem visited_identified_doubtful :
    (empty.run doubtfulCalls).1 ∈ empty.visited doubtfulCalls ∧ (empty.run doubtfulCalls).1.Sound ∧
      ∃ m, (empty.run doubtfulCalls).1.freeze = .ok m ∧ m.Sound ∧
        m.application = ⟨.plain "g" "app", "1:2"⟩ ∧
        m.runtime = [.ofArtifact ⟨.plain "g" "a", "1"⟩] ∧
        m.localProject.toList = [⟨"g", "a", "x", "zip"⟩] ∧
        m.lesserPriority.toList = [.plain "g" "b"] := by
  have hlast : (empty.run doubtfulCalls).1 ∈ empty.visited doubtfulCalls :=
    run_mem_visited empty doubtfulCalls
  rcases visited_identified doubtfulCalls _ hlast with ⟨hsound, hmodel⟩
  obtain ⟨m, hm⟩ : ∃ m, (empty.run doubtfulCalls).1.freeze = .ok m := ⟨_, rfl⟩
  refine ⟨hlast, hsound, m, hm, hmodel m hm, ?_⟩
  cases hm
  decide

end Assembly

end Classpath
