import Classpath.Proofs.Assembly.Runs
import Mathlib.Data.List.Forall2

namespace Classpath

/-! # Runs that differ in versions

Classification and exclusion go by keys. So two runs that bring the same keys in the same calls
choose alike, whatever the versions, scopes and flags of their artifacts are.

1. **Alike**: calls and assemblies that differ in versions, scopes and flags only.
2. **Steps and runs**: alike calls are answered alike and keep assemblies alike.
3. **Positions**: what freezing keeps, and what a loader searches, as positions in a list.
4. **Models**: alike assemblies choose the same positions. -/

/-! ## Alike -/

/-- One key, and a version in both or in neither. -/
def Artifact.SameKey (x y : Artifact) : Prop :=
  x.key = y.key ∧ (x.version = "" ↔ y.version = "")

instance (x y : Artifact) : Decidable (x.SameKey y) :=
  inferInstanceAs (Decidable (_ ∧ _))

/-- Dependencies may differ in scope and flags, too. -/
def Dependency.SameKey (d e : Dependency) : Prop :=
  d.artifact.SameKey e.artifact

instance (d e : Dependency) : Decidable (d.SameKey e) :=
  inferInstanceAs (Decidable (d.artifact.SameKey e.artifact))

namespace Assembly

/-- Calls that are the same but for the versions, scopes and flags of what they bring. -/
inductive Call.Alike : Call → Call → Prop where
  | setApplication {x y : Artifact} (h : x.SameKey y) : Alike (.setApplication x) (.setApplication y)
  | addDependency (list : DependencyList) {d e : Dependency} (h : d.SameKey e) :
      Alike (.addDependency list d) (.addDependency list e)
  | addDependencies (list : DependencyList) {ds es : List Dependency}
      (h : List.Forall₂ Dependency.SameKey ds es) :
      Alike (.addDependencies list ds) (.addDependencies list es)
  | same (call : Call) : Alike call call

/-- Assemblies with the same keys everywhere. -/
structure Alike (a b : Assembly) : Prop where
  application : a.application.map Artifact.key = b.application.map Artifact.key
  dependencies : ∀ list,
    (a.dependencies list).map Dependency.key = (b.dependencies list).map Dependency.key
  keys : ∀ group, a.keys group = b.keys group
  properties : a.properties = b.properties

theorem Alike.refl (a : Assembly) : Alike a a := by
  constructor
  · rfl
  · intro list
    rfl
  · intro group
    rfl
  · rfl

/-! ## Steps and runs -/

theorem check_sameKey {x y : Artifact} (h : x.SameKey y) (argument : String) :
    x.check argument = y.check argument := by
  unfold Artifact.check
  rw [h.1]
  simp only [h.2]

theorem checkAll_sameKey {ds es : List Dependency} (h : List.Forall₂ Dependency.SameKey ds es)
    (argument : String) :
    checkAll (fun d => d.artifact.check argument) ds =
      checkAll (fun d => d.artifact.check argument) es := by
  induction h with
  | nil => rfl
  | cons hd _ ih =>
    unfold checkAll
    rw [check_sameKey hd, ih]

theorem map_key_sameKey {ds es : List Dependency} (h : List.Forall₂ Dependency.SameKey ds es) :
    ds.map Dependency.key = es.map Dependency.key := by
  induction h with
  | nil => rfl
  | cons hd _ ih =>
    have hkey : Dependency.key _ = Dependency.key _ := hd.1
    rw [List.map_cons, List.map_cons, hkey, ih]

namespace Call.Alike

variable {call other : Call} (h : Call.Alike call other)
include h

/-- No check looks at more of a version than whether it is there. -/
theorem answer : call.answer = other.answer := by
  cases h with
  | setApplication h =>
    simp only [Call.answer, apply, Assembly.setApplication, check_sameKey h]
    exact settle_checked empty empty _ _ _
  | addDependency list h =>
    have hchecks := checkAll_sameKey (.cons h .nil) list.argument
    simp only [Call.answer, apply, Assembly.addDependency, Assembly.addDependencies, hchecks]
    exact settle_checked empty empty _ _ _
  | addDependencies list h =>
    simp only [Call.answer, apply, Assembly.addDependencies, checkAll_sameKey h]
    exact settle_checked empty empty _ _ _
  | same => rfl

theorem chosen (answer : Answer) :
    (chosen (call, answer)).map Artifact.key = (chosen (other, answer)).map Artifact.key := by
  cases h with
  | setApplication h =>
    cases answer with
    | done => exact congrArg (fun k => [k]) h.1
    | _ => rfl
  | _ => rfl

theorem appended (list : DependencyList) (answer : Answer) :
    (appended list (call, answer)).map Dependency.key =
      (appended list (other, answer)).map Dependency.key := by
  cases h with
  | addDependency target h =>
    cases answer with
    | done =>
      by_cases htarget : target = list
      · simpa [Assembly.appended, htarget] using map_key_sameKey (.cons h .nil)
      · simp [Assembly.appended, htarget]
    | _ => rfl
  | addDependencies target h =>
    cases answer with
    | done =>
      by_cases htarget : target = list
      · simpa [Assembly.appended, htarget] using map_key_sameKey h
      · simp [Assembly.appended, htarget]
    | _ => rfl
  | _ => rfl

theorem inserted (group : KeyGroup) (answer : Answer) :
    inserted group (call, answer) = inserted group (other, answer) := by
  cases h <;> rfl

theorem stated (answer : Answer) : stated (call, answer) = stated (other, answer) := by
  cases h <;> rfl

end Call.Alike

theorem Alike.apply {a b : Assembly} (h : Alike a b) {call other : Call}
    (hcall : Call.Alike call other) : Alike (a.apply call).1 (b.apply other).1 := by
  have hanswer : (a.apply call).2 = (b.apply other).2 := by
    rw [answer_apply, answer_apply, hcall.answer]
  constructor
  · rw [application_apply, application_apply, Option.map_or, Option.map_or, h.application,
      ← List.getLast?_map, ← List.getLast?_map, hcall.chosen, hanswer]
  · intro list
    rw [dependencies_apply, dependencies_apply, List.map_append, List.map_append, h.dependencies,
      hcall.appended, hanswer]
  · intro group
    rw [keys_apply, keys_apply, h.keys, hcall.inserted, hanswer]
  · rw [properties_apply, properties_apply, h.properties, hcall.stated, hanswer]

/-- Runs of alike calls are answered alike and end in alike assemblies. -/
theorem Alike.run {a b : Assembly} (h : Alike a b) {calls others : List Call}
    (hcalls : List.Forall₂ Call.Alike calls others) :
    (a.run calls).2 = (b.run others).2 ∧ Alike (a.run calls).1 (b.run others).1 := by
  induction hcalls generalizing a b with
  | nil => exact ⟨rfl, h⟩
  | cons hcall _ ih =>
    have hanswer := hcall.answer
    obtain ⟨hanswers, hend⟩ := ih (h.apply hcall)
    rw [run_cons, run_cons, answer_apply, answer_apply, hanswer, hanswers]
    exact ⟨rfl, hend⟩

end Assembly

/-! ## Positions -/

section Positions

variable {α β : Type}

/-- The items of a list at some positions, in the order of the positions. -/
def itemsAt (xs : List α) (positions : List Nat) : List α :=
  positions.filterMap fun i => xs[i]?

theorem itemsAt_append (xs : List α) (here there : List Nat) :
    itemsAt xs (here ++ there) = itemsAt xs here ++ itemsAt xs there :=
  List.filterMap_append

theorem map_itemsAt (f : α → β) (xs : List α) (positions : List Nat) :
    (itemsAt xs positions).map f = itemsAt (xs.map f) positions := by
  unfold itemsAt
  rw [List.map_filterMap]
  simp only [List.getElem?_map]

/-- A filter chooses the items at the positions where its test succeeds. -/
theorem filter_eq_itemsAt (p : α → Bool) (xs : List α) :
    xs.filter p = itemsAt xs (xs.findIdxs p) := by
  induction xs with
  | nil => rfl
  | cons x xs ih =>
    -- the positions in the rest, seen from the whole list, are each one more
    have hrest : itemsAt (x :: xs) (xs.findIdxs p 1) = itemsAt xs (xs.findIdxs p) := by
      unfold itemsAt
      rw [List.findIdxs_start, List.filterMap_map]
      rfl
    rw [List.filter_cons, List.findIdxs_cons]
    split
    · have hhead : itemsAt (x :: xs) (0 :: xs.findIdxs p (0 + 1)) =
          x :: itemsAt (x :: xs) (xs.findIdxs p 1) := rfl
      rw [hhead, hrest, ih]
    · rw [Nat.zero_add, hrest, ih]

/-- Tests that cannot tell things with one key apart succeed at the same positions in lists with the
same keys. -/
theorem findIdxs_congr (key : α → β) {p q : α → Bool} (hpq : ∀ x y, key x = key y → p x = q y)
    {xs ys : List α} (h : xs.map key = ys.map key) (start : Nat) :
    xs.findIdxs p start = ys.findIdxs q start := by
  induction xs generalizing ys start with
  | nil =>
    rw [List.map_nil, eq_comm, List.map_eq_nil_iff] at h
    rw [h]
    rfl
  | cons x xs ih =>
    rw [List.map_cons, eq_comm, List.map_eq_cons_iff] at h
    obtain ⟨y, ys, rfl, hkey, hrest⟩ := h
    rw [List.findIdxs_cons, List.findIdxs_cons, hpq x y hkey.symm, ih hrest.symm]

end Positions

namespace Assembly

/-- The positions in a list of the dependencies that freezing keeps. -/
def surviving (a : Assembly) (list : DependencyList) : List Nat :=
  (a.dependencies list).findIdxs fun d => !a.isExcluded d.artifact

theorem dependencies_freeze_surviving {a : Assembly} {m : Model} (h : a.freeze = .ok m)
    (list : DependencyList) :
    m.dependencies list = itemsAt (a.dependencies list) (a.surviving list) := by
  rw [dependencies_freeze h, retained, filter_eq_itemsAt, surviving]

end Assembly

namespace Model

/-- The positions in a list in the order in which the isolated loader of a context searches
them. -/
def searched (m : Model) (deps : List Dependency) (context : Context) : List Nat :=
  (deps.findIdxs fun d => m.placement d.key context = .isolated) ++
    deps.findIdxs fun d => m.placement d.key context = .lesserPriority

theorem searchOrder_eq_itemsAt (m : Model) (deps : List Dependency) (context : Context) :
    m.searchOrder deps context = itemsAt deps (m.searched deps context) := by
  have hhead (d : Dependency) : (decide (m.placement d.key context ≠ .lesserPriority) &&
      decide (m.placement d.key context ≠ .parentFirst)) =
        decide (m.placement d.key context = .isolated) := by
    cases m.placement d.key context <;> rfl
  have htail (d : Dependency) : (decide (m.placement d.key context = .lesserPriority) &&
      decide (m.placement d.key context ≠ .parentFirst)) =
        decide (m.placement d.key context = .lesserPriority) := by
    cases m.placement d.key context <;> rfl
  unfold searchOrder searched
  simp only [itemsAt_append, List.filter_filter, ← filter_eq_itemsAt, hhead, htail]

end Model

/-! ## Models -/

/-- What is the same about two assemblies that differ in versions, scopes and flags, and about their
models:

1. the same positions of each list survive, and the models have what stands at these positions;
2. the four sets and the properties of the models are equal;
3. in each list of the models and each context, the same positions are searched, in the same
   order. -/
structure SameChoices (a b : Assembly) (m n : Model) : Prop where
  surviving : ∀ list, a.surviving list = b.surviving list ∧
    m.dependencies list = itemsAt (a.dependencies list) (a.surviving list) ∧
    n.dependencies list = itemsAt (b.dependencies list) (b.surviving list)
  parentFirst : m.parentFirst = n.parentFirst
  runnerParentFirst : m.runnerParentFirst = n.runnerParentFirst
  lesserPriority : m.lesserPriority = n.lesserPriority
  localProject : m.localProject = n.localProject
  properties : m.properties = n.properties
  searched : ∀ list context,
    m.searched (m.dependencies list) context = n.searched (n.dependencies list) context ∧
    m.searchOrder (m.dependencies list) context =
      itemsAt (m.dependencies list) (m.searched (m.dependencies list) context) ∧
    n.searchOrder (n.dependencies list) context =
      itemsAt (n.dependencies list) (n.searched (n.dependencies list) context)

namespace Assembly

variable {a b : Assembly} {m n : Model}

/-- Whether an artifact is excluded is a question about its key and the excluded set. -/
theorem Alike.isExcluded_eq (h : Alike a b) {x y : Artifact} (hkey : x.key = y.key) :
    a.isExcluded x = b.isExcluded y := by
  have hexcluded : a.excluded = b.excluded := h.keys .excluded
  unfold isExcluded
  rw [hkey, hexcluded]

theorem Alike.surviving_eq (h : Alike a b) (list : DependencyList) :
    a.surviving list = b.surviving list := by
  refine findIdxs_congr Dependency.key (fun d e hkey => ?_) (h.dependencies list) 0
  rw [h.isExcluded_eq hkey]

/-- Alike assemblies have models that choose alike. -/
theorem Alike.sameChoices (h : Alike a b) (hm : a.freeze = .ok m) (hn : b.freeze = .ok n) :
    SameChoices a b m n := by
  have hsets : m.parentFirst = n.parentFirst ∧ m.runnerParentFirst = n.runnerParentFirst ∧
      m.lesserPriority = n.lesserPriority ∧ m.localProject = n.localProject ∧
      m.properties = n.properties := by
    unfold freeze at hm hn
    split at hm
    · exact absurd hm (by simp)
    · split at hn
      · exact absurd hn (by simp)
      · cases hm
        cases hn
        exact ⟨h.keys .parentFirst, h.keys .runnerParentFirst, h.keys .lesserPriority,
          h.keys .localProject, h.properties⟩
  obtain ⟨hparentFirst, hrunner, hlesser, hlocal, hproperties⟩ := hsets
  have hplacement (k : Key) (context : Model.Context) :
      m.placement k context = n.placement k context := by
    have hfirst : m.parentFirstIn context = n.parentFirstIn context := by
      cases context with
      | augmentation => exact hparentFirst
      | runner => exact hrunner
    unfold Model.placement
    rw [hfirst, hlesser]
  have hkeys (list : DependencyList) :
      (m.dependencies list).map Dependency.key = (n.dependencies list).map Dependency.key := by
    rw [dependencies_freeze_surviving hm, dependencies_freeze_surviving hn, map_itemsAt, map_itemsAt,
      h.dependencies, h.surviving_eq]
  constructor
  · intro list
    exact ⟨h.surviving_eq list, dependencies_freeze_surviving hm list,
      dependencies_freeze_surviving hn list⟩
  · exact hparentFirst
  · exact hrunner
  · exact hlesser
  · exact hlocal
  · exact hproperties
  · intro list context
    refine ⟨?_, Model.searchOrder_eq_itemsAt m _ context, Model.searchOrder_eq_itemsAt n _ context⟩
    have hplaced (p : Model.Placement) (d e : Dependency) (hkey : d.key = e.key) :
        decide (m.placement d.key context = p) = decide (n.placement e.key context = p) := by
      rw [hplacement, hkey]
    unfold Model.searched
    rw [findIdxs_congr Dependency.key (hplaced .isolated) (hkeys list) 0,
      findIdxs_congr Dependency.key (hplaced .lesserPriority) (hkeys list) 0]

theorem Alike.freeze_cases (h : Alike a b) :
    (∃ fault, a.freeze = .error fault ∧ b.freeze = .error fault) ∨
      ∃ m n, a.freeze = .ok m ∧ b.freeze = .ok n := by
  have happlication := h.application
  unfold freeze
  cases ha : a.application with
  | none =>
    rw [ha, Option.map_none, eq_comm, Option.map_eq_none_iff] at happlication
    rw [happlication]
    left
    exact ⟨_, rfl, rfl⟩
  | some x =>
    rw [ha, Option.map_some, eq_comm, Option.map_eq_some_iff] at happlication
    obtain ⟨y, hy, _⟩ := happlication
    rw [hy]
    right
    exact ⟨_, _, rfl, rfl⟩

/-- Two runs whose calls differ in versions, scopes and flags only are answered alike, and either
neither of them leads to a model, or both do and the same is chosen in both. -/
theorem run_sees_keys_only {calls others : List Call} (h : List.Forall₂ Call.Alike calls others) :
    (empty.run calls).2 = (empty.run others).2 ∧
      ((∃ fault, (empty.run calls).1.freeze = .error fault ∧
          (empty.run others).1.freeze = .error fault) ∨
        ∃ m n, (empty.run calls).1.freeze = .ok m ∧ (empty.run others).1.freeze = .ok n ∧
          SameChoices (empty.run calls).1 (empty.run others).1 m n) := by
  obtain ⟨hanswers, halike⟩ := (Alike.refl empty).run h
  refine ⟨hanswers, ?_⟩
  rcases halike.freeze_cases with hfault | ⟨m, n, hm, hn⟩
  · left
    exact hfault
  · right
    exact ⟨m, n, hm, hn, halike.sameChoices hm hn⟩

/-- Calls that bring the launcher, an excluded key, a key of lesser priority and a repeated key, all
with a version, a scope and flags that are given. -/
def taggedCalls (version scope : String) (flag : Bool) : List Call :=
  let dep (name : String) : Dependency := ⟨⟨.plain "g" name, version⟩, scope, flag, flag⟩
  let launcher : Dependency :=
    ⟨⟨.plain launcherGroup launcherName, version⟩, scope, flag, flag⟩
  [.addDependencies .runtime [dep "late", launcher, dep "out", dep "a", dep "a"],
   .merge "e" (.ofList [("excluded-artifacts", "g:out"), ("lesser-priority-artifacts", "g:late")]),
   .setApplication ⟨.plain "g" "app", version⟩,
   .addDependency .runtime ⟨⟨.plain "g" "b", ""⟩, "compile", true, false⟩]

theorem run_sees_keys_only_tagged :
    List.Forall₂ Call.Alike (taggedCalls "1" "compile" true) (taggedCalls "2" "test" false) ∧
      ∃ m n, (empty.run (taggedCalls "1" "compile" true)).1.freeze = .ok m ∧
        (empty.run (taggedCalls "2" "test" false)).1.freeze = .ok n ∧ m ≠ n ∧
        SameChoices (empty.run (taggedCalls "1" "compile" true)).1
          (empty.run (taggedCalls "2" "test" false)).1 m n ∧
        m.searched m.runtime .augmentation = [1, 2, 0] := by
  have hcalls : List.Forall₂ Call.Alike (taggedCalls "1" "compile" true)
      (taggedCalls "2" "test" false) := by
    have hversions : "1" = "" ↔ "2" = "" := by decide
    have hsame (k : Key) : Dependency.SameKey ⟨⟨k, "1"⟩, "compile", true, true⟩
        ⟨⟨k, "2"⟩, "test", false, false⟩ := ⟨rfl, hversions⟩
    refine .cons (.addDependencies _ ?_) (.cons (.same _) (.cons (.setApplication ?_)
      (.cons (.same _) .nil)))
    · exact .cons (hsame _) (.cons (hsame _) (.cons (hsame _) (.cons (hsame _)
        (.cons (hsame _) .nil))))
    · exact ⟨rfl, hversions⟩
  refine ⟨hcalls, ?_⟩
  obtain ⟨_, hends⟩ := run_sees_keys_only hcalls
  rcases hends with ⟨fault, hfault, _⟩ | ⟨m, n, hm, hn, hchoices⟩
  · cases hfault
  · refine ⟨m, n, hm, hn, ?_, hchoices, ?_⟩
    · cases hm
      cases hn
      decide
    · cases hm
      decide

end Assembly

end Classpath
