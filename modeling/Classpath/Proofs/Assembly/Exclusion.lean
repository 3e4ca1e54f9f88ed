import Classpath.Proofs.Assembly.Runs

namespace Classpath.Assembly

/-! # Exclusion over whole runs

Dependencies are kept as they come, and only freezing asks which of them are excluded. So a key that
is excluded at any time of a run takes out the dependencies that came before and after it. -/

/-- The launcher, with any classifier, packaging and version. -/
def IsLauncher (d : Dependency) : Prop :=
  d.artifact.key.group = "io.quarkus" ∧ d.artifact.key.name = "quarkus-ide-launcher"

instance (d : Dependency) : Decidable (IsLauncher d) :=
  inferInstanceAs (Decidable (_ ∧ _))

/-- The dependencies that the calls of a run appended to a list: the accepted batches one after the
other, single dependencies being batches of one. -/
def delivered (calls : List Call) (list : DependencyList) : List Dependency :=
  (empty.history calls).flatMap (appended list)

/-- The keys that the calls of a run excluded, by themselves or in a descriptor that was applied. -/
def banned (calls : List Call) : List Key :=
  (empty.history calls).flatMap (inserted .excluded)

theorem dependencies_run_empty (calls : List Call) (list : DependencyList) :
    (empty.run calls).1.dependencies list = delivered calls list := by
  have hempty : empty.dependencies list = [] := by
    cases list <;> rfl
  rw [dependencies_run, hempty, List.nil_append, delivered]

theorem mem_excluded_run_empty (calls : List Call) (k : Key) :
    k ∈ (empty.run calls).1.excluded ↔ k ∈ banned calls := by
  have hkeys : (empty.run calls).1.excluded = (∅ : KeySet).insertAll (banned calls) :=
    keys_run empty calls .excluded
  rw [hkeys, OrderedSet.mem_insertAll]
  constructor
  · intro h
    rcases h with h | h
    · exact absurd h OrderedSet.not_mem_empty
    · exact h
  · exact Or.inr

/-- What a run excludes: the launcher, and what it was told to exclude. -/
theorem isExcluded_run_empty (calls : List Call) (d : Dependency) :
    (empty.run calls).1.isExcluded d.artifact = true ↔ IsLauncher d ∨ d.key ∈ banned calls := by
  have hmem := mem_excluded_run_empty calls d.key
  simp only [isExcluded, OrderedSet.contains, Bool.or_eq_true, Bool.and_eq_true,
    decide_eq_true_eq]
  exact or_congr Iff.rfl hmem

/-- Each list of the model is what the run delivered for it, in the same order and as often, without
the launcher and without every key that was excluded at any time. A dependency is left out exactly
if the assembly says so at the end. -/
theorem freeze_run_retained (calls : List Call)
    (h : (empty.run calls).1.application.isSome = true) :
    ∃ m, (empty.run calls).1.freeze = .ok m ∧ ∀ list,
      m.dependencies list =
          (delivered calls list).filter (fun d => ¬ (IsLauncher d ∨ d.key ∈ banned calls)) ∧
        ∀ d ∈ delivered calls list,
          d ∉ m.dependencies list ↔ (empty.run calls).1.isExcluded d.artifact = true := by
  rcases exists_freeze h with ⟨m, hm⟩
  refine ⟨m, hm, fun list => ?_⟩
  -- The filter of freezing, with the run's history in place of the fields of the assembly.
  have hlist : m.dependencies list =
      (delivered calls list).filter fun d => !(empty.run calls).1.isExcluded d.artifact := by
    rw [dependencies_freeze hm, dependencies_run_empty, retained]
  constructor
  · rw [hlist]
    refine List.filter_congr fun d _ => ?_
    by_cases hd : IsLauncher d ∨ d.key ∈ banned calls
    · have hexcluded := (isExcluded_run_empty calls d).2 hd
      simp [hd, hexcluded]
    · have hkept : (empty.run calls).1.isExcluded d.artifact = false := by
        rw [← Bool.not_eq_true]
        exact fun hexcluded => hd ((isExcluded_run_empty calls d).1 hexcluded)
      simp [hd, hkept]
  · intro d hd
    rw [hlist, List.mem_filter, not_and]
    constructor
    · intro hout
      simpa using hout hd
    · intro hexcluded _
      simp [hexcluded]

/-- A key is excluded after its dependency came, one batch and one descriptor are refused, and the
launcher comes with a classifier. -/
def lateCalls : List Call :=
  [.addDependencies .runtime [.ofArtifact ⟨.plain "g" "a", "1"⟩, .ofArtifact ⟨.plain "g" "b", "1"⟩],
   .addDependencies .runtime [.ofArtifact ⟨.plain "g" "c", "1"⟩, .ofArtifact ⟨.plain "g" "d", ""⟩],
   .addDependency .runtime
    (.ofArtifact ⟨⟨"io.quarkus", "quarkus-ide-launcher", "x", "zip"⟩, "1"⟩),
   .addDependency .runtime (.ofArtifact ⟨.plain "g" "a", "1"⟩),
   .setApplication ⟨.plain "g" "app", "1"⟩,
   .merge "good" (.ofList [("excluded-artifacts", "g:b")]),
   .merge "bad" (.ofList [("excluded-artifacts", "g:a, a")])]

theorem freeze_run_retained_late :
    (empty.run lateCalls).1.application.isSome = true ∧
      ∃ m, (empty.run lateCalls).1.freeze = .ok m ∧
        m.dependencies .runtime =
          [.ofArtifact ⟨.plain "g" "a", "1"⟩, .ofArtifact ⟨.plain "g" "a", "1"⟩] := by
  have happlication : (empty.run lateCalls).1.application.isSome = true := by
    decide
  refine ⟨happlication, ?_⟩
  rcases freeze_run_retained lateCalls happlication with ⟨m, hm, hlists⟩
  have hruntime : (delivered lateCalls .runtime).filter
      (fun d => ¬ (IsLauncher d ∨ d.key ∈ banned lateCalls)) =
        [.ofArtifact ⟨.plain "g" "a", "1"⟩, .ofArtifact ⟨.plain "g" "a", "1"⟩] := by
    decide
  exact ⟨m, hm, (hlists .runtime).1.trans hruntime⟩

end Classpath.Assembly
