import Classpath.Proofs.Assembly.Descriptors

namespace Classpath

/-! # Runs of calls

1. **Steps**: `Step` lists all that a call can do.
2. **Answers**: whether a call takes effect, and how it is answered, depends on the call alone.
3. **Histories**: an assembly after a run is what it was before and what the accepted calls brought,
   in the order of the calls.
4. **Invariant**: a sound assembly holds resolved artifacts and complete keys only, and every call
   keeps it sound.
5. **Freezing**: what a model takes over from its assembly. -/

namespace Assembly

open Descriptor (WellFormed Blames brought)

/-! ## Steps -/

/-- The calls that take effect. -/
def Call.Acceptable : Call → Prop
  | .setApplication artifact => artifact.Resolved
  | .addProperties _ => True
  | .addDependency _ dep => dep.artifact.Resolved
  | .addDependencies _ deps => ∀ d ∈ deps, d.artifact.Resolved
  | .addKey _ key => key.Complete
  | .addKeys _ keys => ∀ k ∈ keys, k.Complete
  | .merge _ properties => WellFormed properties

/-- What a call does to an assembly, and its answer. -/
inductive Step (a : Assembly) : Call → Assembly × Answer → Prop where
  | setApplication {artifact : Artifact} (h : artifact.Resolved) :
      Step a (.setApplication artifact) ({ a with application := some artifact }, .done)
  | addProperties (entries : List (String × String)) :
      Step a (.addProperties entries) (a.addProperties entries, .done)
  | addDependency {list : DependencyList} {dep : Dependency} (h : dep.artifact.Resolved) :
      Step a (.addDependency list dep) (a.append list [dep], .done)
  | addDependencies {list : DependencyList} {deps : List Dependency}
      (h : ∀ d ∈ deps, d.artifact.Resolved) :
      Step a (.addDependencies list deps) (a.append list deps, .done)
  | addKey {group : KeyGroup} {key : Key} (h : key.Complete) :
      Step a (.addKey group key) (a.insertKeys group [key], .done)
  | addKeys {group : KeyGroup} {keys : List Key} (h : ∀ k ∈ keys, k.Complete) :
      Step a (.addKeys group keys) (a.insertKeys group keys, .done)
  | merge {source : String} {properties : PropertyMap} (h : WellFormed properties) :
      Step a (.merge source properties) (a.absorb properties, .applied)
  | refused {call : Call} {fault : Fault} (h : ¬ call.Acceptable) : Step a call (a, .refused fault)
  | rejected {source : String} {properties : PropertyMap} {r : Descriptor.Rejection}
      (h : ¬ WellFormed properties) (hr : Blames properties r) :
      Step a (.merge source properties) (a, .rejected (Diagnostic.ofRejection source r))

theorem step_settle {a b : Assembly} {call : Call} {outcome : Except Fault Assembly}
    (hok : ∀ next, outcome = .ok next ↔ call.Acceptable ∧ b = next)
    (hstep : call.Acceptable → Step a call (b, .done)) : Step a call (a.settle outcome) := by
  cases houtcome : outcome with
  | ok next =>
    rcases (hok next).1 houtcome with ⟨hcall, rfl⟩
    exact hstep hcall
  | error fault =>
    -- an acceptable call would have been answered with `b`
    refine Step.refused fun hcall => ?_
    have hbuilt := (hok b).2 ⟨hcall, rfl⟩
    rw [houtcome] at hbuilt
    cases hbuilt

/-- Every call makes one of the steps. -/
theorem step_apply (a : Assembly) (call : Call) : Step a call (a.apply call) := by
  cases call with
  | setApplication artifact =>
    refine step_settle (fun next => setApplication_eq_ok_iff) ?_
    exact Step.setApplication
  | addProperties entries => exact Step.addProperties entries
  | addDependency list dep =>
    refine step_settle (fun next => addDependency_eq_ok_iff) ?_
    exact Step.addDependency
  | addDependencies list deps =>
    refine step_settle (fun next => addDependencies_eq_ok_iff) ?_
    exact Step.addDependencies
  | addKey group key =>
    refine step_settle (fun next => addKey_eq_ok_iff) ?_
    exact Step.addKey
  | addKeys group keys =>
    refine step_settle (fun next => addKeys_eq_ok_iff) ?_
    exact Step.addKeys
  | merge source properties =>
    by_cases h : WellFormed properties
    · rw [apply_merge_of_wellFormed h a source]
      exact Step.merge h
    · rcases apply_merge_of_not_wellFormed h source with ⟨r, hr, happly⟩
      rw [happly a]
      exact Step.rejected h hr

/-! ## Answers -/

/-- The answer that a call gets from a new assembly, and so from every other one. -/
def Call.answer (call : Call) : Answer :=
  (empty.apply call).2

theorem settle_checked (a b next other : Assembly) (check : Except Fault Unit) :
    (a.settle (check.map fun _ => next)).2 = (b.settle (check.map fun _ => other)).2 := by
  cases check with
  | error fault => rfl
  | ok _ => rfl

/-- Checks look at the call alone, and so does the reader of a descriptor. -/
theorem answer_apply (a : Assembly) (call : Call) : (a.apply call).2 = call.answer := by
  cases call with
  | setApplication artifact => exact settle_checked a empty _ _ _
  | addProperties entries => rfl
  | addDependency list dep => exact settle_checked a empty _ _ _
  | addDependencies list deps => exact settle_checked a empty _ _ _
  | addKey group key => exact settle_checked a empty _ _ _
  | addKeys group keys => exact settle_checked a empty _ _ _
  | merge source properties =>
    simp only [Call.answer, apply, merge]
    cases Descriptor.assignments properties with
    | error rejection => rfl
    | ok assignments => rfl

/-! ## Histories -/

/-- The calls of a run with their answers. -/
def history (a : Assembly) (calls : List Call) : List (Call × Answer) :=
  calls.zip (a.run calls).2

/-- The application artifact that a call set, if it set one. -/
def chosen : Call × Answer → List Artifact
  | (.setApplication artifact, .done) => [artifact]
  | _ => []

/-- The properties that a call added. -/
def stated : Call × Answer → List (String × String)
  | (.addProperties entries, .done) => entries
  | _ => []

/-- The dependencies that a call appended to a list. -/
def appended (list : DependencyList) : Call × Answer → List Dependency
  | (.addDependency other dep, .done) => if other = list then [dep] else []
  | (.addDependencies other deps, .done) => if other = list then deps else []
  | _ => []

/-- The keys that a call put into a set. -/
def inserted (group : KeyGroup) : Call × Answer → List Key
  | (.addKey other key, .done) => if other = group then [key] else []
  | (.addKeys other keys, .done) => if other = group then keys else []
  | (.merge _ properties, .applied) => brought properties group
  | _ => []

theorem run_cons (a : Assembly) (call : Call) (calls : List Call) :
    a.run (call :: calls) =
      (((a.apply call).1.run calls).1, (a.apply call).2 :: ((a.apply call).1.run calls).2) :=
  rfl

theorem run_append (a : Assembly) (calls others : List Call) :
    a.run (calls ++ others) =
      (((a.run calls).1.run others).1, (a.run calls).2 ++ ((a.run calls).1.run others).2) := by
  induction calls generalizing a with
  | nil => rfl
  | cons call calls ih => rw [List.cons_append, run_cons, ih, run_cons, List.cons_append]

theorem history_cons (a : Assembly) (call : Call) (calls : List Call) :
    a.history (call :: calls) =
      (call, (a.apply call).2) :: (a.apply call).1.history calls :=
  rfl

theorem answers_run (a : Assembly) (calls : List Call) :
    (a.run calls).2 = calls.map Call.answer := by
  induction calls generalizing a with
  | nil => rfl
  | cons call calls ih => rw [run_cons, ih, answer_apply, List.map_cons]

/-- A history says nothing about the assembly that the run started from. -/
theorem history_eq_map (a : Assembly) (calls : List Call) :
    a.history calls = calls.map fun call => (call, call.answer) := by
  rw [history, answers_run, List.map_prod_left_eq_zip]

theorem application_apply (a : Assembly) (call : Call) :
    (a.apply call).1.application =
      (chosen (call, (a.apply call).2)).getLast?.or a.application := by
  have hstep := step_apply a call
  generalize a.apply call = result at hstep
  cases hstep with
  | setApplication h => rfl
  | addDependency h => exact application_append a _ _
  | addDependencies h => exact application_append a _ _
  | addKey h => exact application_insertKeys a _ _
  | addKeys h => exact application_insertKeys a _ _
  | merge h => exact application_absorb a _
  | refused h => cases call <;> rfl
  | _ => rfl

theorem properties_apply (a : Assembly) (call : Call) :
    (a.apply call).1.properties = a.properties.insertAll (stated (call, (a.apply call).2)) := by
  have hstep := step_apply a call
  generalize a.apply call = result at hstep
  cases hstep with
  | addDependency h => exact properties_append a _ _
  | addDependencies h => exact properties_append a _ _
  | addKey h => exact properties_insertKeys a _ _
  | addKeys h => exact properties_insertKeys a _ _
  | merge h => exact properties_absorb a _
  | refused h => cases call <;> rfl
  | _ => rfl

/-- A list grows by what the call appends to it. -/
theorem dependencies_apply (a : Assembly) (call : Call) (list : DependencyList) :
    (a.apply call).1.dependencies list =
      a.dependencies list ++ appended list (call, (a.apply call).2) := by
  -- by the steps, never by the calls: a refused call leaves the assembly alone whatever it is
  have hstep := step_apply a call
  generalize a.apply call = result at hstep
  cases hstep with
  | setApplication h => exact (List.append_nil _).symm
  | addProperties entries => exact (List.append_nil _).symm
  | addDependency h => exact dependencies_append a _ _ list
  | addDependencies h => exact dependencies_append a _ _ list
  | refused h => cases call <;> exact (List.append_nil _).symm
  | _ => simp [appended]

/-- A set grows by what the call inserts into it. -/
theorem keys_apply (a : Assembly) (call : Call) (group : KeyGroup) :
    (a.apply call).1.keys group =
      (a.keys group).insertAll (inserted group (call, (a.apply call).2)) := by
  have hstep := step_apply a call
  generalize a.apply call = result at hstep
  cases hstep with
  | setApplication h => rfl
  | addProperties entries => rfl
  | addKey h => exact keys_insertKeys a _ _ group
  | addKeys h => exact keys_insertKeys a _ _ group
  | merge h => exact keys_absorb a _ group
  | refused h => cases call <;> rfl
  | _ => simp [inserted]

/-- The application after a run: the last one that was set. -/
theorem application_run (a : Assembly) (calls : List Call) :
    (a.run calls).1.application =
      ((a.history calls).flatMap chosen).getLast?.or a.application := by
  induction calls generalizing a with
  | nil => rfl
  | cons call calls ih =>
    rw [run_cons, history_cons, List.flatMap_cons, ih, application_apply, List.getLast?_append,
      Option.or_assoc]

/-- The properties after a run: all that were added, in the order of the calls. -/
theorem properties_run (a : Assembly) (calls : List Call) :
    (a.run calls).1.properties = a.properties.insertAll ((a.history calls).flatMap stated) := by
  induction calls generalizing a with
  | nil => rfl
  | cons call calls ih =>
    rw [run_cons, history_cons, List.flatMap_cons, ih, properties_apply,
      OrderedMap.insertAll_append]

/-- A list after a run: all that was appended, in the order of the calls. -/
theorem dependencies_run (a : Assembly) (calls : List Call) (list : DependencyList) :
    (a.run calls).1.dependencies list =
      a.dependencies list ++ (a.history calls).flatMap (appended list) := by
  -- On the calls, for every assembly that they may start from.
  induction calls generalizing a with
  | nil => exact (List.append_nil _).symm
  | cons call calls ih =>
    rw [run_cons, history_cons, List.flatMap_cons, ih, dependencies_apply, List.append_assoc]

/-- A set after a run: all that was inserted. -/
theorem keys_run (a : Assembly) (calls : List Call) (group : KeyGroup) :
    (a.run calls).1.keys group =
      (a.keys group).insertAll ((a.history calls).flatMap (inserted group)) := by
  induction calls generalizing a with
  | nil => rfl
  | cons call calls ih =>
    rw [run_cons, history_cons, List.flatMap_cons, ih, keys_apply, OrderedSet.insertAll_append]

/-! ## The invariant -/

/-- Everything in the assembly has an identity: artifacts are resolved, and keys are complete. -/
structure Sound (a : Assembly) : Prop where
  application : ∀ artifact, a.application = some artifact → artifact.Resolved
  dependencies : ∀ list, ∀ d ∈ a.dependencies list, d.artifact.Resolved
  keys : ∀ group, ∀ k ∈ a.keys group, k.Complete

theorem sound_empty : Sound empty := by
  constructor
  · intro artifact h
    exact absurd h (by simp [empty])
  · intro list d hd
    cases list <;> exact absurd hd List.not_mem_nil
  · intro group k hk
    cases group <;> exact absurd hk OrderedSet.not_mem_empty

theorem Sound.append {a : Assembly} (ha : a.Sound) {list : DependencyList}
    {deps : List Dependency} (h : ∀ d ∈ deps, d.artifact.Resolved) : (a.append list deps).Sound := by
  constructor
  · intro artifact hartifact
    rw [application_append] at hartifact
    exact ha.application artifact hartifact
  · intro other d hd
    rw [dependencies_append] at hd
    rcases List.mem_append.1 hd with hd | hd
    · exact ha.dependencies other d hd
    · split at hd
      · exact h d hd
      · exact absurd hd List.not_mem_nil
  · intro group k hk
    rw [keys_append] at hk
    exact ha.keys group k hk

theorem Sound.insertKeys {a : Assembly} (ha : a.Sound) {group : KeyGroup} {keys : List Key}
    (h : ∀ k ∈ keys, k.Complete) : (a.insertKeys group keys).Sound := by
  constructor
  · intro artifact hartifact
    rw [application_insertKeys] at hartifact
    exact ha.application artifact hartifact
  · intro list d hd
    rw [dependencies_insertKeys] at hd
    exact ha.dependencies list d hd
  · intro other k hk
    rw [keys_insertKeys, OrderedSet.mem_insertAll] at hk
    rcases hk with hk | hk
    · exact ha.keys other k hk
    · split at hk
      · exact h k hk
      · exact absurd hk List.not_mem_nil

/-- The checks are passed by on the way of a descriptor, but its tokens name complete keys. -/
theorem Sound.absorb {a : Assembly} (ha : a.Sound) (properties : PropertyMap) :
    (a.absorb properties).Sound := by
  constructor
  · intro artifact hartifact
    rw [application_absorb] at hartifact
    exact ha.application artifact hartifact
  · intro list d hd
    rw [dependencies_absorb] at hd
    exact ha.dependencies list d hd
  · intro group k hk
    rw [keys_absorb, OrderedSet.mem_insertAll] at hk
    rcases hk with hk | hk
    · exact ha.keys group k hk
    · exact (Descriptor.mem_brought_iff.1 hk).complete

theorem Sound.step {a : Assembly} (ha : a.Sound) {call : Call} {result : Assembly × Answer}
    (hstep : Step a call result) : result.1.Sound := by
  cases hstep with
  | setApplication h =>
    refine ⟨?_, ha.dependencies, ha.keys⟩
    intro artifact hartifact
    cases hartifact
    exact h
  | addProperties entries => exact ⟨ha.application, ha.dependencies, ha.keys⟩
  | addDependency h => exact ha.append (List.forall_mem_singleton.2 h)
  | addDependencies h => exact ha.append h
  | addKey h => exact ha.insertKeys (List.forall_mem_singleton.2 h)
  | addKeys h => exact ha.insertKeys h
  | merge h => exact ha.absorb _
  | refused h => exact ha
  | rejected h hr => exact ha

/-- Every run keeps a sound assembly sound. -/
theorem Sound.run {a : Assembly} (ha : a.Sound) (calls : List Call) : (a.run calls).1.Sound := by
  induction calls generalizing a with
  | nil => exact ha
  | cons call calls ih => exact ih (ha.step (step_apply a call))

end Assembly

/-! ## Freezing -/

/-- The three dependency lists of a model. -/
def Model.dependencies (m : Model) : DependencyList → List Dependency
  | .runtime => m.runtime
  | .deployment => m.deployment
  | .fullDeployment => m.fullDeployment

namespace Assembly

/-- There is a model exactly if there is an application artifact. -/
theorem exists_freeze {a : Assembly} (h : a.application.isSome = true) : ∃ m, a.freeze = .ok m := by
  rcases Option.isSome_iff_exists.1 h with ⟨artifact, hartifact⟩
  rw [freeze, hartifact]
  exact ⟨_, rfl⟩

theorem dependencies_freeze {a : Assembly} {m : Model} (h : a.freeze = .ok m)
    (list : DependencyList) : m.dependencies list = a.retained (a.dependencies list) := by
  rw [freeze] at h
  split at h
  · exact absurd h (by simp)
  · cases h
    cases list <;> rfl

theorem keysComplete_freeze {a : Assembly} (ha : a.Sound) {m : Model} (h : a.freeze = .ok m) :
    ∀ keys ∈ [m.parentFirst, m.runnerParentFirst, m.lesserPriority, m.localProject],
      ∀ k ∈ keys, k.Complete := by
  rw [freeze] at h
  split at h
  · exact absurd h (by simp)
  · cases h
    intro keys hkeys
    simp only [List.mem_cons, List.not_mem_nil, or_false] at hkeys
    rcases hkeys with rfl | rfl | rfl | rfl
    · exact ha.keys .parentFirst
    · exact ha.keys .runnerParentFirst
    · exact ha.keys .lesserPriority
    · exact ha.keys .localProject

end Assembly

end Classpath
