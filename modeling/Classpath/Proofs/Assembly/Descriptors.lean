import Classpath.Proofs.Assembly.State
import Classpath.Proofs.Descriptor.Lists

namespace Classpath

/-! # Descriptors as a whole

1. **Verdict**: a descriptor is well formed if every token that it lists names a key; otherwise the
   rejection blames the first bad token of the first property that has one.
2. **Effect**: a well-formed descriptor adds the keys that it names to the four sets of its classes,
   and any other one changes nothing. -/

namespace Descriptor

/-! ## Verdicts -/

/-- Every token under a property names a key. -/
def Meaningful (properties : PropertyMap) (property : String) : Prop :=
  ∀ ts, Lists properties property ts → ∀ token ∈ ts, ∃ k, Key.parse token = .ok k

/-- Every token names a key. -/
def WellFormed (properties : PropertyMap) : Prop :=
  ∀ x ∈ classLists, Meaningful properties x.1

/-- A rejection is about the first property, in the order in which they are read, that lists a token
without a meaning, and about the first such token of that property. -/
def Blames (properties : PropertyMap) (r : Rejection) : Prop :=
  ∃ earlier x later before after,
    classLists = earlier ++ x :: later ∧ (∀ y ∈ earlier, Meaningful properties y.1) ∧
      r.property = x.1 ∧ Lists properties x.1 (before ++ r.token :: after) ∧
      (∀ token ∈ before, ∃ k, Key.parse token = .ok k) ∧ Key.parse r.token = .error r.fault

/-- A descriptor names a key for a set: a token in the list for the set stands for the key. -/
def Brings (properties : PropertyMap) (group : KeyGroup) (k : Key) : Prop :=
  ∃ property ts, (property, group) ∈ classLists ∧ Lists properties property ts ∧
    ∃ token ∈ ts, Key.parse token = .ok k

/-- The keys that a descriptor names for a class. -/
def named (properties : PropertyMap) (c : Classification) : List Key :=
  (listed properties c).filterMap fun token => (Key.parse token).toOption

theorem meaningful_iff {properties : PropertyMap} {c : Classification} :
    Meaningful properties c.property ↔
      ∀ token ∈ listed properties c, (Key.parse token).isOk = true := by
  simp only [Meaningful, lists_iff, isOk_iff, forall_eq']

theorem wellFormed_iff {properties : PropertyMap} :
    WellFormed properties ↔
      ∀ c ∈ Classification.all, ∀ token ∈ listed properties c, (Key.parse token).isOk = true := by
  rw [WellFormed, classLists_eq]
  simp only [List.forall_mem_map, meaningful_iff]

instance (properties : PropertyMap) : Decidable (WellFormed properties) :=
  decidable_of_iff _ wellFormed_iff.symm

/-- All that a well-formed descriptor assigns. -/
def allAssignments (properties : PropertyMap) : List Assignment :=
  Classification.all.flatMap fun c => (named properties c).map fun key => (c, key)

theorem readKeys_eq_mapM (ts : List String) :
    readKeys ts = ts.mapM fun t => (Key.parse t).mapError fun fault => (t, fault) := by
  induction ts with
  | nil => rfl
  | cons t ts ih =>
    rw [readKeys, mapM_cons, ← ih]
    cases Key.parse t with
    | error fault => rfl
    | ok key => cases readKeys ts <;> rfl

theorem isOk_mapError {ε ε' α : Type} (x : Except ε α) (f : ε → ε') :
    (x.mapError f).isOk = x.isOk := by
  cases x <;> rfl

theorem toOption_mapError {ε ε' α : Type} (x : Except ε α) (f : ε → ε') :
    (x.mapError f).toOption = x.toOption := by
  cases x <;> rfl

theorem readKeys_eq_ok_iff {ts : List String} {keys : List Key} :
    readKeys ts = .ok keys ↔ (∀ t ∈ ts, (Key.parse t).isOk = true) ∧
      (ts.filterMap fun t => (Key.parse t).toOption) = keys := by
  rw [readKeys_eq_mapM, mapM_eq_ok_iff]
  simp only [isOk_mapError, toOption_mapError]

theorem readKeys_eq_error_iff {ts : List String} {token : String} {fault : Fault} :
    readKeys ts = .error (token, fault) ↔ ∃ before after, ts = before ++ token :: after ∧
      (∀ t ∈ before, (Key.parse t).isOk = true) ∧ Key.parse token = .error fault := by
  rw [readKeys_eq_mapM, mapM_eq_error_iff]
  simp only [isOk_mapError, mapError_eq_error, Prod.mk.injEq]
  constructor
  · rintro ⟨before, t, after, hts, hbefore, found, hfound, rfl, rfl⟩
    exact ⟨before, after, hts, hbefore, hfound⟩
  · rintro ⟨before, after, hts, hbefore, hfault⟩
    exact ⟨before, token, after, hts, hbefore, fault, hfault, rfl, rfl⟩

/-- A property that is not there lists nothing. -/
theorem readProperty_eq (properties : PropertyMap) (c : Classification) :
    readProperty properties c =
      ((readKeys (listed properties c)).mapError fun flaw => ⟨c.property, flaw.1, flaw.2⟩).map
        fun keys => keys.map fun key => (c, key) := by
  rw [readProperty, listed]
  cases properties.get? c.property with
  | none => rfl
  | some list =>
    dsimp only
    cases readKeys (tokens list) with
    | error flaw => rfl
    | ok keys => rfl

theorem readProperty_eq_ok_iff {properties : PropertyMap} {c : Classification}
    {xs : List Assignment} :
    readProperty properties c = .ok xs ↔
      (∀ token ∈ listed properties c, (Key.parse token).isOk = true) ∧
        (named properties c).map (fun key => (c, key)) = xs := by
  rw [readProperty_eq, map_eq_ok]
  simp only [mapError_eq_ok, readKeys_eq_ok_iff, named]
  constructor
  · rintro ⟨keys, ⟨hall, rfl⟩, rfl⟩
    exact ⟨hall, rfl⟩
  · rintro ⟨hall, rfl⟩
    exact ⟨_, ⟨hall, rfl⟩, rfl⟩

theorem readProperty_isOk {properties : PropertyMap} {c : Classification} :
    (readProperty properties c).isOk = true ↔
      ∀ token ∈ listed properties c, (Key.parse token).isOk = true := by
  rw [isOk_iff]
  constructor
  · rintro ⟨xs, hxs⟩
    exact (readProperty_eq_ok_iff.1 hxs).1
  · intro hall
    exact ⟨_, readProperty_eq_ok_iff.2 ⟨hall, rfl⟩⟩

theorem readProperty_eq_error_iff {properties : PropertyMap} {c : Classification} {r : Rejection} :
    readProperty properties c = .error r ↔ r.property = c.property ∧ ∃ before after,
      listed properties c = before ++ r.token :: after ∧
        (∀ token ∈ before, (Key.parse token).isOk = true) ∧ Key.parse r.token = .error r.fault := by
  rw [readProperty_eq, map_eq_error, mapError_eq_error]
  constructor
  · rintro ⟨⟨token, fault⟩, hflaw, rfl⟩
    exact ⟨rfl, readKeys_eq_error_iff.1 hflaw⟩
  · rintro ⟨hproperty, hfirst⟩
    refine ⟨(r.token, r.fault), readKeys_eq_error_iff.2 hfirst, ?_⟩
    cases r
    simp_all

theorem readProperties_eq_mapM (properties : PropertyMap) (cs : List Classification) :
    readProperties properties cs = (cs.mapM (readProperty properties)).map List.flatten := by
  induction cs with
  | nil => rfl
  | cons c cs ih =>
    rw [readProperties, mapM_cons, ih]
    cases readProperty properties c with
    | error rejection => rfl
    | ok here => cases List.mapM (readProperty properties) cs <;> rfl

/-- What can be read of some classes is what the descriptor names for them. -/
theorem flatten_readProperty {properties : PropertyMap} {cs : List Classification}
    (h : ∀ c ∈ cs, ∀ token ∈ listed properties c, (Key.parse token).isOk = true) :
    (cs.filterMap fun c => (readProperty properties c).toOption).flatten =
      cs.flatMap fun c => (named properties c).map fun key => (c, key) := by
  induction cs with
  | nil => rfl
  | cons c cs ih =>
    have hc : (readProperty properties c).toOption =
        some ((named properties c).map fun key => (c, key)) := by
      rw [readProperty_eq_ok_iff.2 ⟨h c List.mem_cons_self, rfl⟩]
      rfl
    have hcs := ih fun x hx => h x (List.mem_cons_of_mem c hx)
    simp [hc, hcs]

/-- A descriptor is taken exactly if it is well formed. -/
theorem assignments_eq_ok_iff {properties : PropertyMap} {xs : List Assignment} :
    assignments properties = .ok xs ↔ WellFormed properties ∧ allAssignments properties = xs := by
  rw [assignments, readProperties_eq_mapM, map_eq_ok, wellFormed_iff]
  simp only [mapM_eq_ok_iff, readProperty_isOk]
  constructor
  · rintro ⟨_, ⟨hall, rfl⟩, rfl⟩
    exact ⟨hall, (flatten_readProperty hall).symm⟩
  · rintro ⟨hall, rfl⟩
    exact ⟨_, ⟨hall, rfl⟩, flatten_readProperty hall⟩

/-- The rejection of a descriptor blames what is wrong with it. -/
theorem assignments_eq_error_iff {properties : PropertyMap} {r : Rejection} :
    assignments properties = .error r ↔ Blames properties r := by
  rw [assignments, readProperties_eq_mapM, map_eq_error, mapM_eq_error_iff]
  simp only [readProperty_isOk, readProperty_eq_error_iff]
  constructor
  · rintro ⟨earlier, c, later, hall, hearlier, hproperty, before, after, hlist, hbefore, hfault⟩
    refine ⟨earlier.map fun c => (c.property, c.group), (c.property, c.group),
      later.map fun c => (c.property, c.group), before, after, ?_, ?_, hproperty,
      lists_iff.2 hlist, ?_, hfault⟩
    · rw [classLists_eq, hall, List.map_append, List.map_cons]
    · rw [List.forall_mem_map]
      intro x hx
      exact meaningful_iff.2 (hearlier x hx)
    · intro token htoken
      exact isOk_iff.1 (hbefore token htoken)
  · rintro ⟨front, x, back, before, after, hall, hfront, hproperty, hlist, hbefore, hfault⟩
    -- the parts of the list of properties are the properties of parts of the list of classes
    rw [classLists_eq] at hall
    obtain ⟨earlier, rest, hclasses, rfl, hrest⟩ := List.map_eq_append_iff.1 hall
    obtain ⟨c, later, rfl, rfl, -⟩ := List.map_eq_cons_iff.1 hrest
    refine ⟨earlier, c, later, hclasses, ?_, hproperty, before, after, lists_iff.1 hlist, ?_,
      hfault⟩
    · intro x hx
      exact meaningful_iff.1 (hfront _ (List.mem_map_of_mem hx))
    · intro token htoken
      exact isOk_iff.2 (hbefore token htoken)

/-- A descriptor is well formed, or there is something to blame. -/
theorem blames_of_not_wellFormed {properties : PropertyMap} (h : ¬ WellFormed properties) :
    ∃ r, assignments properties = .error r ∧ Blames properties r := by
  cases hassignments : assignments properties with
  | error r => exact ⟨r, rfl, assignments_eq_error_iff.1 hassignments⟩
  | ok xs => exact absurd (assignments_eq_ok_iff.1 hassignments).1 h

theorem mem_named_iff {properties : PropertyMap} {c : Classification} {k : Key} :
    k ∈ named properties c ↔ ∃ token ∈ listed properties c, Key.parse token = .ok k := by
  simp only [named, List.mem_filterMap, toOption_eq_some_iff]

/-- The keys that a descriptor brings to a set. -/
def brought (properties : PropertyMap) : KeyGroup → List Key
  | .parentFirst => named properties .parentFirst
  | .runnerParentFirst => named properties .runnerParentFirst
  | .excluded => named properties .excluded
  | .lesserPriority => named properties .lesserPriority
  | .localProject => []

/-- What a descriptor brings to a set is what it names for the set. -/
theorem mem_brought_iff {properties : PropertyMap} {group : KeyGroup} {k : Key} :
    k ∈ brought properties group ↔ Brings properties group k := by
  have hclass (c : Classification) : k ∈ named properties c ↔
      ∃ ts, Lists properties c.property ts ∧ ∃ token ∈ ts, Key.parse token = .ok k := by
    simp only [mem_named_iff, lists_iff, exists_eq_left']
  cases group with
  | parentFirst => simp [brought, Brings, classLists, hclass, Classification.property]
  | runnerParentFirst => simp [brought, Brings, classLists, hclass, Classification.property]
  | excluded => simp [brought, Brings, classLists, hclass, Classification.property]
  | lesserPriority => simp [brought, Brings, classLists, hclass, Classification.property]
  | localProject => simp [brought, Brings, classLists]

instance (properties : PropertyMap) (group : KeyGroup) (k : Key) :
    Decidable (Brings properties group k) :=
  decidable_of_iff _ mem_brought_iff

/-- Whatever a descriptor names is complete. -/
theorem Brings.complete {properties : PropertyMap} {group : KeyGroup} {k : Key}
    (h : Brings properties group k) : k.Complete := by
  obtain ⟨property, ts, -, -, token, -, hparse⟩ := h
  exact Key.complete_of_parse hparse

end Descriptor

/-! ## Effects -/

namespace Assembly

open Descriptor (WellFormed Blames allAssignments brought named)

/-- The assembly with all keys that a descriptor brings. -/
def absorb (a : Assembly) (properties : PropertyMap) : Assembly :=
  a.assign (allAssignments properties)

theorem assign_map (a : Assembly) (c : Classification) (values : List Key) :
    a.assign (values.map fun key => (c, key)) = a.insertKeys c.group values := by
  -- both sides are compared view by view, since the fields of the four classes differ
  induction values generalizing a with
  | nil =>
    refine ext_views ?_ ?_ ?_ ?_
    · simp [assign]
    · intro list
      simp [assign]
    · intro group
      simp [assign]
    · simp [assign]
  | cons key values ih =>
    have hstep : a.assign ((key :: values).map fun key => (c, key)) =
        (a.insertKeys c.group [key]).assign (values.map fun key => (c, key)) := rfl
    rw [hstep, ih]
    refine ext_views ?_ ?_ ?_ ?_
    · simp
    · intro list
      simp
    · intro group
      by_cases hgroup : c.group = group
      · simp only [keys_insertKeys, hgroup, if_true]
        exact (OrderedSet.insertAll_append (a.keys group) [key] values).symm
      · simp [hgroup]
    · simp

theorem assign_append (a : Assembly) (xs ys : List Descriptor.Assignment) :
    a.assign (xs ++ ys) = (a.assign xs).assign ys :=
  List.foldl_append

theorem absorb_eq (a : Assembly) (properties : PropertyMap) :
    a.absorb properties =
      (((a.insertKeys .parentFirst (named properties .parentFirst)).insertKeys .runnerParentFirst
          (named properties .runnerParentFirst)).insertKeys .excluded
            (named properties .excluded)).insertKeys .lesserPriority
              (named properties .lesserPriority) := by
  simp only [absorb, allAssignments, Classification.all, List.flatMap_cons, List.flatMap_nil,
    assign_append, assign_map, List.append_nil, Classification.group]

section Absorb

variable (a : Assembly) (properties : PropertyMap)

@[simp] theorem application_absorb : (a.absorb properties).application = a.application := by
  simp [absorb_eq]

@[simp] theorem dependencies_absorb (list : DependencyList) :
    (a.absorb properties).dependencies list = a.dependencies list := by
  simp [absorb_eq]

@[simp] theorem keys_absorb (group : KeyGroup) :
    (a.absorb properties).keys group = (a.keys group).insertAll (brought properties group) := by
  cases group <;> simp [absorb_eq, brought]

@[simp] theorem properties_absorb : (a.absorb properties).properties = a.properties := by
  simp [absorb_eq]

end Absorb

theorem apply_merge_of_wellFormed {properties : PropertyMap} (h : WellFormed properties)
    (a : Assembly) (source : String) :
    a.apply (.merge source properties) = (a.absorb properties, .applied) := by
  have hassignments := Descriptor.assignments_eq_ok_iff.2 ⟨h, rfl⟩
  simp only [apply, merge, hassignments, absorb]

theorem apply_merge_of_not_wellFormed {properties : PropertyMap} (h : ¬ WellFormed properties)
    (source : String) : ∃ r, Blames properties r ∧ ∀ a : Assembly,
      a.apply (.merge source properties) =
        (a, .rejected (Diagnostic.ofRejection source r)) := by
  rcases Descriptor.blames_of_not_wellFormed h with ⟨r, hassignments, hblames⟩
  refine ⟨r, hblames, fun a => ?_⟩
  simp only [apply, merge, hassignments]

end Assembly

end Classpath
