import Classpath.OrderedMap

namespace Classpath

/-! # Sets and maps by what they hold

A set is known by its members and a map by its look-ups: two of them that agree there are equal.
Adding a list of values is adding its members, and adding a list of entries lets the last entry of
each key win. -/

/-! ## Sets -/

namespace OrderedSet

variable {α : Type} [Ord α] [Std.LawfulEqOrd α]

theorem mem_insertInto {a x : α} {l : List α} : x ∈ insertInto a l ↔ x = a ∨ x ∈ l := by
  induction l with
  | nil => simp [insertInto]
  | cons b bs ih =>
    rw [insertInto]
    split
    next => simp
    next h =>
      have hab : a = b := Std.LawfulEqOrd.eq_of_compare h
      simp [hab]
    next =>
      rw [List.mem_cons, ih, List.mem_cons]
      constructor
      · rintro (h | h | h)
        · exact Or.inr (Or.inl h)
        · exact Or.inl h
        · exact Or.inr (Or.inr h)
      · rintro (h | h | h)
        · exact Or.inr (Or.inl h)
        · exact Or.inl h
        · exact Or.inr (Or.inr h)

variable [Std.TransOrd α]

@[simp] theorem mem_insert {s : OrderedSet α} {a x : α} : x ∈ s.insert a ↔ x = a ∨ x ∈ s :=
  mem_insertInto

@[simp] theorem mem_insertAll {values : List α} {s : OrderedSet α} {x : α} :
    x ∈ s.insertAll values ↔ x ∈ s ∨ x ∈ values := by
  induction values generalizing s with
  | nil => simp [insertAll]
  | cons a values ih =>
    have h := ih (s := s.insert a)
    simp only [insertAll, List.foldl_cons] at h ⊢
    rw [h, mem_insert, List.mem_cons]
    constructor
    · rintro ((h | h) | h)
      · exact Or.inr (Or.inl h)
      · exact Or.inl h
      · exact Or.inr (Or.inr h)
    · rintro (h | h | h)
      · exact Or.inl (Or.inr h)
      · exact Or.inl (Or.inl h)
      · exact Or.inr h

omit [Std.LawfulEqOrd α] [Std.TransOrd α] in
@[simp] theorem not_mem_empty {x : α} : x ∉ (∅ : OrderedSet α) :=
  List.not_mem_nil

@[simp] theorem mem_ofList {values : List α} {x : α} : x ∈ ofList values ↔ x ∈ values := by
  refine mem_insertAll.trans ⟨fun h => ?_, Or.inr⟩
  exact h.resolve_left List.not_mem_nil

omit [Std.TransOrd α] in
theorem nodup_toList (s : OrderedSet α) : s.toList.Nodup := by
  refine s.ordered.imp fun {a b} hab heq => ?_
  subst heq
  simp [Before] at hab

/-- Sets with the same members are equal. -/
theorem ext {s t : OrderedSet α} (h : ∀ x, x ∈ s ↔ x ∈ t) : s = t := by
  -- Two lists in strict order with the same members are the same list.
  have hperm : s.toList.Perm t.toList :=
    (List.perm_ext_iff_of_nodup s.nodup_toList t.nodup_toList).2 h
  have hlist : s.toList = t.toList := by
    refine List.Perm.eq_of_pairwise (fun a b _ _ hab hba => ?_) s.ordered t.ordered hperm
    exact absurd hba (Std.OrientedCmp.not_lt_of_lt hab)
  cases s
  cases t
  simpa using hlist

/-- The members of a set make the set. -/
@[simp] theorem ofList_toList (s : OrderedSet α) : ofList s.toList = s :=
  ext fun _ => mem_ofList

omit [Std.LawfulEqOrd α] in
@[simp] theorem insertAll_nil (s : OrderedSet α) : s.insertAll [] = s :=
  rfl

omit [Std.LawfulEqOrd α] in
theorem insertAll_append (s : OrderedSet α) (values others : List α) :
    s.insertAll (values ++ others) = (s.insertAll values).insertAll others :=
  List.foldl_append

end OrderedSet

/-! ## Look-ups in a list of entries -/

namespace OrderedMap

variable {κ ν : Type}

section Lists

variable [DecidableEq κ]

theorem lookIn_eq_none_iff {k : κ} {l : List (κ × ν)} :
    lookIn k l = none ↔ k ∉ l.map Prod.fst := by
  induction l with
  | nil => simp [lookIn]
  | cons e es ih =>
    rw [lookIn]
    split
    next h => simp [h]
    next h =>
      rw [ih, List.map_cons, List.mem_cons, not_or]
      exact ⟨fun hes => ⟨fun hk => h hk.symm, hes⟩, fun hes => hes.2⟩

theorem mem_of_lookIn {k : κ} {v : ν} {l : List (κ × ν)} (h : lookIn k l = some v) :
    (k, v) ∈ l := by
  induction l with
  | nil => simp [lookIn] at h
  | cons e es ih =>
    rw [lookIn] at h
    split at h
    next hk =>
      cases h
      rw [← hk]
      exact List.mem_cons_self
    next => exact List.mem_cons_of_mem e (ih h)

/-- Where each key stands once, looking up finds exactly the entries. -/
theorem lookIn_eq_some_iff {k : κ} {v : ν} {l : List (κ × ν)} (hl : (l.map Prod.fst).Nodup) :
    lookIn k l = some v ↔ (k, v) ∈ l := by
  refine ⟨mem_of_lookIn, fun h => ?_⟩
  induction l with
  | nil => simp at h
  | cons e es ih =>
    have hnodup := List.nodup_cons.1 hl
    rw [lookIn]
    rcases List.mem_cons.1 h with rfl | h
    · simp
    · have hne : e.1 ≠ k := by
        intro hk
        exact hnodup.1 (hk ▸ List.mem_map_of_mem h)
      rw [if_neg hne]
      exact ih hnodup.2 h

theorem lookIn_perm {k : κ} {l l' : List (κ × ν)} (hl : (l.map Prod.fst).Nodup)
    (h : l.Perm l') : lookIn k l = lookIn k l' := by
  have hl' : (l'.map Prod.fst).Nodup := (h.map Prod.fst).nodup hl
  ext v
  rw [lookIn_eq_some_iff hl, lookIn_eq_some_iff hl', h.mem_iff]

theorem lookIn_map {μ : Type} (f : ν → μ) (k : κ) (l : List (κ × ν)) :
    lookIn k (l.map fun e => (e.1, f e.2)) = (lookIn k l).map f := by
  induction l with
  | nil => rfl
  | cons e es ih =>
    simp only [List.map_cons, lookIn, ih]
    split <;> rfl

theorem lookIn_append (k : κ) (l l' : List (κ × ν)) :
    lookIn k (l ++ l') = (lookIn k l).or (lookIn k l') := by
  induction l with
  | nil => rfl
  | cons e es ih =>
    simp only [List.cons_append, lookIn, ih]
    split <;> rfl

/-- Looking up finds the first entry of a key. -/
theorem lookIn_eq_some_iff_first {k : κ} {v : ν} {l : List (κ × ν)} :
    lookIn k l = some v ↔
      ∃ before after, l = before ++ (k, v) :: after ∧ k ∉ before.map Prod.fst := by
  constructor
  · intro h
    induction l with
    | nil => simp [lookIn] at h
    | cons e es ih =>
      rw [lookIn] at h
      split at h
      next hk =>
        cases h
        refine ⟨[], es, ?_, List.not_mem_nil⟩
        rw [← hk]
        rfl
      next hk =>
        obtain ⟨before, after, rfl, hbefore⟩ := ih h
        refine ⟨e :: before, after, rfl, ?_⟩
        rw [List.map_cons, List.mem_cons, not_or]
        exact ⟨fun hkey => hk hkey.symm, hbefore⟩
  · rintro ⟨before, after, rfl, hbefore⟩
    rw [lookIn_append, lookIn_eq_none_iff.2 hbefore]
    simp [lookIn]

end Lists

/-! ## Maps -/

variable [Ord κ] [Std.LawfulEqOrd κ]

/-- Of two insertions under a key, the second one leaves its value and no other trace. -/
@[simp] theorem insertInto_insertInto (k : κ) (v w : ν) (l : List (κ × ν)) :
    insertInto k w (insertInto k v l) = insertInto k w l := by
  induction l with
  | nil => simp [insertInto]
  | cons e es ih =>
    rw [insertInto, insertInto]
    split
    next => simp [insertInto]
    next h => simp [insertInto, h]
    next h => simp [insertInto, h, ih]

omit [Std.LawfulEqOrd κ] in
theorem mem_of_mem_insertInto {k : κ} {v : ν} {l : List (κ × ν)} {e : κ × ν}
    (h : e ∈ insertInto k v l) : e.2 = v ∨ e ∈ l := by
  induction l with
  | nil => simp_all [insertInto]
  | cons first rest ih =>
    rw [insertInto] at h
    split at h
    · rcases List.mem_cons.1 h with rfl | h
      · exact Or.inl rfl
      · exact Or.inr h
    · rcases List.mem_cons.1 h with rfl | h
      · exact Or.inl rfl
      · exact Or.inr (List.mem_cons_of_mem first h)
    · rcases List.mem_cons.1 h with rfl | h
      · exact Or.inr List.mem_cons_self
      · exact (ih h).imp id (List.mem_cons_of_mem first)

omit [Std.LawfulEqOrd κ] in
theorem map_insertInto {μ : Type} (f : ν → μ) (k : κ) (v : ν) (l : List (κ × ν)) :
    (insertInto k v l).map (fun e => (e.1, f e.2)) =
      insertInto k (f v) (l.map fun e => (e.1, f e.2)) := by
  induction l with
  | nil => rfl
  | cons e es ih =>
    rw [insertInto, List.map_cons, insertInto]
    split
    next h => simp [h]
    next h => simp [h]
    next h => simp [h, ih]

theorem nodup_keys (m : OrderedMap κ ν) : (m.entries.map Prod.fst).Nodup :=
  (OrderedSet.mk _ m.ordered).nodup_toList

theorem nodup_entries (m : OrderedMap κ ν) : m.entries.Nodup :=
  (List.pairwise_map.1 m.nodup_keys).imp fun hne heq => hne (congrArg Prod.fst heq)

variable [DecidableEq κ] [Std.TransOrd κ]

/-- Maps with the same look-ups are equal. -/
theorem ext_get? {m m' : OrderedMap κ ν} (h : ∀ k, m.get? k = m'.get? k) : m = m' := by
  -- The look-ups give the entries, and entries in strict order stand in one order only.
  have hmem : ∀ e, e ∈ m.entries ↔ e ∈ m'.entries := by
    rintro ⟨k, v⟩
    rw [← lookIn_eq_some_iff m.nodup_keys, ← lookIn_eq_some_iff m'.nodup_keys]
    exact iff_of_eq (congrArg (· = some v) (h k))
  have hperm : m.entries.Perm m'.entries :=
    (List.perm_ext_iff_of_nodup m.nodup_entries m'.nodup_entries).2 hmem
  have hlist : m.entries = m'.entries := by
    refine List.Perm.eq_of_pairwise (fun a b _ _ hab hba => ?_)
      (List.pairwise_map.1 m.ordered) (List.pairwise_map.1 m'.ordered) hperm
    exact absurd hba (Std.OrientedCmp.not_lt_of_lt hab)
  cases m
  cases m'
  simpa using hlist

omit [DecidableEq κ] [Std.LawfulEqOrd κ] in
theorem insertAll_append (m : OrderedMap κ ν) (es others : List (κ × ν)) :
    m.insertAll (es ++ others) = (m.insertAll es).insertAll others :=
  List.foldl_append

/-- Of the entries of a list, the last one of a key wins. -/
theorem get?_insertAll (m : OrderedMap κ ν) (es : List (κ × ν)) (k : κ) :
    (m.insertAll es).get? k = (lookIn k es.reverse).or (m.get? k) := by
  induction es generalizing m with
  | nil => rfl
  | cons e es ih =>
    have h := ih (m.insert e.1 e.2)
    simp only [insertAll, List.foldl_cons] at h ⊢
    rw [h, List.reverse_cons, lookIn_append, get?_insert, Option.or_assoc]
    simp only [lookIn]
    split <;> rfl

theorem get?_ofList (es : List (κ × ν)) (k : κ) : (ofList es).get? k = lookIn k es.reverse := by
  have hget := get?_insertAll (empty : OrderedMap κ ν) es k
  have hnone : (empty : OrderedMap κ ν).get? k = none := rfl
  rw [hnone, Option.or_none] at hget
  exact hget

/-- Adding all that another map has lets the values of that map win. -/
theorem get?_insertAll_entries (m m' : OrderedMap κ ν) (k : κ) :
    (m.insertAll m'.entries).get? k = (m'.get? k).or (m.get? k) := by
  have hreverse : lookIn k m'.entries.reverse = lookIn k m'.entries :=
    (lookIn_perm m'.nodup_keys m'.entries.reverse_perm.symm).symm
  rw [get?_insertAll, hreverse, get?, get?]

/-- Only the last entries of a list count, so its map can be added in its place. -/
theorem insertAll_entries_ofList (m : OrderedMap κ ν) (es : List (κ × ν)) :
    m.insertAll (ofList es).entries = m.insertAll es := by
  refine ext_get? fun k => ?_
  rw [get?_insertAll_entries, get?_ofList, get?_insertAll]

omit [DecidableEq κ] [Std.LawfulEqOrd κ] in
theorem map_entries_insertAll {μ : Type} (f : ν → μ) (m : OrderedMap κ ν) (m' : OrderedMap κ μ)
    (h : m.entries.map (fun e => (e.1, f e.2)) = m'.entries) (es : List (κ × ν)) :
    (m.insertAll es).entries.map (fun e => (e.1, f e.2)) =
      (m'.insertAll (es.map fun e => (e.1, f e.2))).entries := by
  induction es generalizing m m' with
  | nil => exact h
  | cons e es ih =>
    refine ih (m.insert e.1 e.2) (m'.insert e.1 (f e.2)) ?_
    simp only [insert, map_insertInto, h]

omit [DecidableEq κ] [Std.LawfulEqOrd κ] in
/-- Changing the values of a list changes the values of its map. -/
theorem map_entries_ofList {μ : Type} (f : ν → μ) (es : List (κ × ν)) :
    (ofList es).entries.map (fun e => (e.1, f e.2)) =
      (ofList (es.map fun e => (e.1, f e.2))).entries :=
  map_entries_insertAll f empty empty rfl es

/-- The map of a list has the last value of each key. -/
theorem get?_ofList_eq_some_iff {es : List (κ × ν)} {k : κ} {v : ν} :
    (ofList es).get? k = some v ↔
      ∃ before after, es = before ++ (k, v) :: after ∧ k ∉ after.map Prod.fst := by
  rw [get?_ofList, lookIn_eq_some_iff_first]
  constructor
  · rintro ⟨before, after, hreverse, hbefore⟩
    refine ⟨after.reverse, before.reverse, ?_, ?_⟩
    · rw [← List.reverse_inj, hreverse]
      simp
    · rw [List.map_reverse, List.mem_reverse]
      exact hbefore
  · rintro ⟨before, after, rfl, hafter⟩
    refine ⟨after.reverse, before.reverse, by simp, ?_⟩
    rw [List.map_reverse, List.mem_reverse]
    exact hafter

theorem lookIn_entries_ofList {es : List (κ × ν)} (h : (es.map Prod.fst).Nodup) (k : κ) :
    lookIn k (ofList es).entries = lookIn k es := by
  -- Later entries win, which is the same as the first of the reversed list.
  have hreverse : lookIn k es.reverse = lookIn k es :=
    (lookIn_perm h es.reverse_perm.symm).symm
  have hget := get?_ofList es k
  rw [hreverse] at hget
  exact hget

theorem mem_entries_ofList {es : List (κ × ν)} (h : (es.map Prod.fst).Nodup) {e : κ × ν} :
    e ∈ (ofList es).entries ↔ e ∈ es := by
  rw [← lookIn_eq_some_iff (ofList es).nodup_keys, lookIn_entries_ofList h, lookIn_eq_some_iff h]

/-- The order in which entries with different keys come leaves no trace. -/
theorem ofList_perm {es es' : List (κ × ν)} (hes : (es.map Prod.fst).Nodup) (h : es.Perm es') :
    ofList es = ofList es' := by
  have hes' : (es'.map Prod.fst).Nodup := (h.map Prod.fst).nodup hes
  refine ext_get? fun k => ?_
  have hleft := lookIn_entries_ofList hes k
  have hright := lookIn_entries_ofList hes' k
  rw [get?, get?, hleft, hright]
  exact lookIn_perm hes h

/-- The entries of a map make the map. -/
@[simp] theorem ofList_entries (m : OrderedMap κ ν) : ofList m.entries = m :=
  ext_get? fun k => lookIn_entries_ofList m.nodup_keys k

end OrderedMap

end Classpath
