import Classpath.Assembly
import Classpath.Proofs.Collections
import Classpath.Proofs.Outcomes
import Classpath.Proofs.Tokens

namespace Classpath.Assembly

/-! # The parts of an assembly

An assembly is seen through four views: the application artifact, a list under each name, a set
under each name, and the properties. Each operation is described once by what it does to the views;
later proofs never look at the fields again. -/

/-! ## Views -/

/-- Assemblies that look the same are the same. -/
theorem ext_views {a b : Assembly} (happlication : a.application = b.application)
    (hlists : ∀ list, a.dependencies list = b.dependencies list)
    (hkeys : ∀ group, a.keys group = b.keys group) (hproperties : a.properties = b.properties) :
    a = b := by
  have hruntime := hlists .runtime
  have hdeployment := hlists .deployment
  have hfull := hlists .fullDeployment
  have hparentFirst := hkeys .parentFirst
  have hrunner := hkeys .runnerParentFirst
  have hexcluded := hkeys .excluded
  have hlesser := hkeys .lesserPriority
  have hlocal := hkeys .localProject
  cases a
  cases b
  simp_all [dependencies, keys]

section Append

variable (a : Assembly) (list : DependencyList) (deps : List Dependency)

@[simp] theorem application_append : (a.append list deps).application = a.application := by
  cases list <;> rfl

@[simp] theorem dependencies_append (other : DependencyList) :
    (a.append list deps).dependencies other =
      a.dependencies other ++ if list = other then deps else [] := by
  cases list <;> cases other <;> simp [append, dependencies]

@[simp] theorem keys_append (group : KeyGroup) : (a.append list deps).keys group = a.keys group := by
  cases list <;> rfl

@[simp] theorem properties_append : (a.append list deps).properties = a.properties := by
  cases list <;> rfl

end Append

section InsertKeys

variable (a : Assembly) (group : KeyGroup) (values : List Key)

@[simp] theorem application_insertKeys :
    (a.insertKeys group values).application = a.application := by
  cases group <;> rfl

@[simp] theorem dependencies_insertKeys (list : DependencyList) :
    (a.insertKeys group values).dependencies list = a.dependencies list := by
  cases group <;> rfl

@[simp] theorem keys_insertKeys (other : KeyGroup) :
    (a.insertKeys group values).keys other =
      (a.keys other).insertAll (if group = other then values else []) := by
  cases group <;> cases other <;> rfl

@[simp] theorem properties_insertKeys :
    (a.insertKeys group values).properties = a.properties := by
  cases group <;> rfl

end InsertKeys

/-! ## Checked changes -/

theorem checkAll_eq_mapM {α : Type} (test : α → Except Fault Unit) (xs : List α) :
    checkAll test xs = (xs.mapM test).map fun _ => () := by
  induction xs with
  | nil => rfl
  | cons x xs ih =>
    rw [checkAll, mapM_cons, ih]
    cases test x with
    | error fault => rfl
    | ok _ => cases List.mapM test xs <;> rfl

theorem checkAll_eq_ok_iff {α : Type} {test : α → Except Fault Unit} {xs : List α} :
    checkAll test xs = .ok () ↔ ∀ x ∈ xs, test x = .ok () := by
  rw [checkAll_eq_mapM, map_eq_ok]
  constructor
  · rintro ⟨units, hmap, _⟩
    intro x hx
    rcases isOk_iff.1 ((mapM_eq_ok_iff.1 hmap).1 x hx) with ⟨_, hok⟩
    exact hok
  · intro h
    exact ⟨_, mapM_eq_ok_iff.2 ⟨fun x hx => isOk_iff.2 ⟨(), h x hx⟩, rfl⟩, rfl⟩

/-- Every change to an assembly is a check and then a result that does not depend on it. -/
theorem checked_eq_ok_iff {check : Except Fault Unit} {result b : Assembly} :
    (check.map fun _ => result) = .ok b ↔ check = .ok () ∧ result = b := by
  rw [map_eq_ok]
  constructor
  · rintro ⟨_, hcheck, hb⟩
    exact ⟨hcheck, hb⟩
  · rintro ⟨hcheck, hb⟩
    exact ⟨(), hcheck, hb⟩

theorem setApplication_eq_ok_iff {a b : Assembly} {artifact : Artifact} :
    a.setApplication artifact = .ok b ↔
      artifact.Resolved ∧ { a with application := some artifact } = b := by
  rw [setApplication, checked_eq_ok_iff, Artifact.check_eq_ok_iff]

theorem addDependencies_eq_ok_iff {a b : Assembly} {list : DependencyList}
    {deps : List Dependency} :
    a.addDependencies list deps = .ok b ↔
      (∀ d ∈ deps, d.artifact.Resolved) ∧ a.append list deps = b := by
  rw [addDependencies, checked_eq_ok_iff, checkAll_eq_ok_iff]
  simp only [Artifact.check_eq_ok_iff]

theorem addDependency_eq_ok_iff {a b : Assembly} {list : DependencyList} {dep : Dependency} :
    a.addDependency list dep = .ok b ↔ dep.artifact.Resolved ∧ a.append list [dep] = b := by
  rw [addDependency, addDependencies_eq_ok_iff, List.forall_mem_singleton]

theorem addKeys_eq_ok_iff {a b : Assembly} {group : KeyGroup} {values : List Key} :
    a.addKeys group values = .ok b ↔
      (∀ k ∈ values, k.Complete) ∧ a.insertKeys group values = b := by
  rw [addKeys, checked_eq_ok_iff, checkAll_eq_ok_iff]
  simp only [Key.check_eq_ok_iff]

theorem addKey_eq_ok_iff {a b : Assembly} {group : KeyGroup} {key : Key} :
    a.addKey group key = .ok b ↔ key.Complete ∧ a.insertKeys group [key] = b := by
  rw [addKey, addKeys_eq_ok_iff, List.forall_mem_singleton]

end Classpath.Assembly
