import Classpath.Model

namespace Classpath

/-! # Search orders

The isolated loader of a context searches the dependencies that its parent does not serve: first
those that can be found early, then those of lesser priority, and each of the two groups in the
order of the list.

1. **Groups**: a list in which one group follows the other is the two groups, and a group is known
   by what is in it and by the order of the list that it was taken from.
2. **Search orders**: what a search order is, and that there is one and no other. -/

/-! ## Groups -/

section Groups

variable {α : Type} {p q : α → Prop} [DecidablePred p] [DecidablePred q] {xs ys : List α}

/-- A list in which nothing of the other group follows the second one. -/
theorem filter_append_filter_of_pairwise (h : xs.Pairwise fun x y => p x → p y) :
    (xs.filter fun x => ¬ p x) ++ xs.filter (fun x => p x) = xs := by
  induction xs with
  | nil => rfl
  | cons x xs ih =>
    obtain ⟨hx, hxs⟩ := List.pairwise_cons.1 h
    by_cases hp : p x
    · -- from here on everything is in the second group
      have hall : ∀ y ∈ x :: xs, p y := by
        intro y hy
        rcases List.mem_cons.1 hy with rfl | hy
        · exact hp
        · exact hx y hy hp
      have hnone : (x :: xs).filter (fun x => ¬ p x) = [] := by
        rw [List.filter_eq_nil_iff]
        intro y hy
        simpa using hall y hy
      have hsecond : (x :: xs).filter (fun x => p x) = x :: xs := by
        rw [List.filter_eq_self]
        intro y hy
        simpa using hall y hy
      rw [hnone, hsecond, List.nil_append]
    · rw [List.filter_cons_of_pos (by simpa using hp), List.filter_cons_of_neg (by simpa using hp),
        List.cons_append, ih hxs]

/-- A group that keeps the order of a list, and holds what the list has of it, is taken from the
list as it stands. -/
theorem filter_eq_of_perm (hperm : xs.Perm (ys.filter fun y => p y))
    (horder : (xs.filter fun x => q x).Sublist ys) :
    (xs.filter fun x => q x) = (ys.filter fun y => p y).filter fun y => q y := by
  have hkept : ∀ x ∈ xs.filter (fun x => q x), decide (p x) = true := by
    intro x hx
    have hy := hperm.mem_iff.1 (List.mem_filter.1 hx).1
    exact (List.mem_filter.1 hy).2
  have hgroup : ∀ x ∈ xs.filter (fun x => q x), decide (q x) = true := by
    intro x hx
    exact (List.mem_filter.1 hx).2
  have hsublist := (horder.filter fun x => p x).filter fun x => q x
  rw [List.filter_eq_self.2 hkept, List.filter_eq_self.2 hgroup] at hsublist
  exact hsublist.eq_of_length (hperm.filter _).length_eq

end Groups

namespace Model

/-! ## Search orders -/

/-- A list that is the search order of some dependencies for a loader whose parent serves the
`parents` and that searches the `late` keys last. -/
structure IsSearchOrder (parents late : KeySet) (deps found : List Dependency) : Prop where
  /-- Whatever the parent serves is left out, and nothing else is lost or found twice. -/
  occurrences : ∀ d, found.count d = if d.key ∈ parents then 0 else deps.count d
  /-- Once a late key was searched, all that follow are late. -/
  late_last : found.Pairwise fun d e => d.key ∈ late → e.key ∈ late
  early_ordered : (found.filter fun d => d.key ∉ late).Sublist deps
  late_ordered : (found.filter fun d => d.key ∈ late).Sublist deps

/-- The dependencies that the parent does not serve, those with a late key after all others. -/
def grouped (parents late : KeySet) (deps : List Dependency) : List Dependency :=
  ((deps.filter fun d => d.key ∉ parents).filter fun d => d.key ∉ late) ++
    (deps.filter fun d => d.key ∉ parents).filter fun d => d.key ∈ late

section Determined

variable {parents late : KeySet} {deps found : List Dependency}

theorem count_kept (d : Dependency) :
    (deps.filter fun d => d.key ∉ parents).count d =
      if d.key ∈ parents then 0 else deps.count d := by
  by_cases hd : d.key ∈ parents
  · rw [if_pos hd, List.count_eq_zero]
    simp [hd]
  · rw [if_neg hd, List.count_filter (by simpa using hd)]

/-- The facts about a search order leave no choice. -/
theorem IsSearchOrder.eq (h : IsSearchOrder parents late deps found) :
    found = grouped parents late deps := by
  have hperm : found.Perm (deps.filter fun d => d.key ∉ parents) := by
    rw [List.perm_iff_count]
    intro d
    rw [h.occurrences, count_kept]
  rw [grouped, ← filter_eq_of_perm hperm h.early_ordered, ← filter_eq_of_perm hperm h.late_ordered]
  exact (filter_append_filter_of_pairwise h.late_last).symm

/-- One group after the other, as they stand in the list. -/
theorem isSearchOrder_grouped (parents late : KeySet) (deps : List Dependency) :
    IsSearchOrder parents late deps (grouped parents late deps) := by
  unfold grouped
  generalize hkept : (deps.filter fun d => d.key ∉ parents) = kept
  have hsublist : kept.Sublist deps := by
    rw [← hkept]
    exact List.filter_sublist
  have hearly : ∀ d ∈ kept.filter (fun d => d.key ∉ late), d.key ∉ late := by
    intro d hd
    exact of_decide_eq_true (List.mem_filter.1 hd).2
  have hlate : ∀ d ∈ kept.filter (fun d => d.key ∈ late), d.key ∈ late := by
    intro d hd
    exact of_decide_eq_true (List.mem_filter.1 hd).2
  generalize hfirst : (kept.filter fun d => d.key ∉ late) = first at hearly ⊢
  generalize hsecond : (kept.filter fun d => d.key ∈ late) = second at hlate ⊢
  constructor
  · intro d
    have hparts := List.filter_append_perm (fun d : Dependency => d.key ∉ late) kept
    simp only [decide_not, Bool.not_not] at hparts hfirst
    rw [hfirst, hsecond] at hparts
    rw [hparts.count_eq, ← hkept, count_kept]
  · rw [List.pairwise_append]
    refine ⟨?_, ?_, ?_⟩
    · exact List.pairwise_of_forall_mem_list fun d hd e _ hlate => absurd hlate (hearly d hd)
    · exact List.pairwise_of_forall_mem_list fun d _ e he _ => hlate e he
    · intro d _ e he _
      exact hlate e he
  · have hnone : second.filter (fun d => d.key ∉ late) = [] := by
      rw [List.filter_eq_nil_iff]
      intro d hd
      simpa using hlate d hd
    rw [List.filter_append, hnone, List.append_nil]
    refine List.filter_sublist.trans ?_
    rw [← hfirst]
    exact List.filter_sublist.trans hsublist
  · have hnone : first.filter (fun d => d.key ∈ late) = [] := by
      rw [List.filter_eq_nil_iff]
      intro d hd
      simpa using hearly d hd
    rw [List.filter_append, hnone, List.nil_append]
    refine List.filter_sublist.trans ?_
    rw [← hsecond]
    exact List.filter_sublist.trans hsublist

end Determined

section Placements

variable {m : Model} {k : Key} {context : Context}

theorem placement_ne_parentFirst_iff :
    m.placement k context ≠ .parentFirst ↔ k ∉ m.parentFirstIn context := by
  unfold placement
  by_cases hk : k ∈ m.parentFirstIn context
  · simp [hk]
  · by_cases hl : k ∈ m.lesserPriority <;> simp [hk, hl]

/-- Lesser priority counts only where the parent does not serve the key. -/
theorem placement_eq_lesserPriority_iff :
    m.placement k context = .lesserPriority ↔
      k ∉ m.parentFirstIn context ∧ k ∈ m.lesserPriority := by
  unfold placement
  by_cases hk : k ∈ m.parentFirstIn context
  · simp [hk]
  · by_cases hl : k ∈ m.lesserPriority <;> simp [hk, hl]

end Placements

/-- Placing each key comes to asking the two sets in turn. -/
theorem searchOrder_eq (m : Model) (deps : List Dependency) (context : Context) :
    m.searchOrder deps context = grouped (m.parentFirstIn context) m.lesserPriority deps := by
  unfold searchOrder grouped
  simp only [placement_ne_parentFirst_iff, placement_eq_lesserPriority_iff, ne_eq]
  -- the second question is only asked about what the parent does not serve
  have hkept : ∀ d ∈ deps.filter (fun d => d.key ∉ m.parentFirstIn context),
      d.key ∉ m.parentFirstIn context := by
    intro d hd
    exact of_decide_eq_true (List.mem_filter.1 hd).2
  congr 1
  · exact List.filter_congr fun d hd => by simp [hkept d hd]
  · exact List.filter_congr fun d hd => by simp [hkept d hd]

/-- The facts about a search order single out what the model answers, in each context by the keys
that it takes from its parent. -/
theorem isSearchOrder_parentFirstIn_iff (m : Model) (deps found : List Dependency)
    (context : Context) :
    IsSearchOrder (m.parentFirstIn context) m.lesserPriority deps found ↔
      found = m.searchOrder deps context := by
  rw [searchOrder_eq]
  constructor
  · exact IsSearchOrder.eq
  · rintro rfl
    exact isSearchOrder_grouped _ _ deps

/-- A search order is that of its own dependencies. -/
theorem IsSearchOrder.again {parents late : KeySet} {deps found : List Dependency}
    (h : IsSearchOrder parents late deps found) : IsSearchOrder parents late found found := by
  constructor
  · intro d
    by_cases hd : d.key ∈ parents
    · rw [h.occurrences, if_pos hd, if_pos hd]
    · rw [if_neg hd]
  · exact h.late_last
  · exact List.filter_sublist
  · exact List.filter_sublist

/-- The isolated search order of any list is the one list that has every occurrence of what the
parent of the context does not serve and nothing else, with all of lesser priority last, and in each
of the two groups the order of the list. Searching in that order again changes nothing. -/
theorem searchOrder_determined (m : Model) (deps : List Dependency) :
    (∀ found, IsSearchOrder m.parentFirst m.lesserPriority deps found ↔
        found = m.searchOrder deps .augmentation) ∧
      (∀ found, IsSearchOrder m.runnerParentFirst m.lesserPriority deps found ↔
        found = m.searchOrder deps .runner) ∧
      ∀ context, m.searchOrder (m.searchOrder deps context) context =
        m.searchOrder deps context := by
  refine ⟨fun found => ?_, fun found => ?_, fun context => ?_⟩
  · exact m.isSearchOrder_parentFirstIn_iff deps found .augmentation
  · exact m.isSearchOrder_parentFirstIn_iff deps found .runner
  · have hfound := (m.isSearchOrder_parentFirstIn_iff deps _ context).2 rfl
    exact ((m.isSearchOrder_parentFirstIn_iff _ _ context).1 hfound.again).symm

end Model

end Classpath
