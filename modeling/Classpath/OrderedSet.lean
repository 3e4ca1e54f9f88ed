namespace Classpath

/-! # Sets in increasing order

A finite set kept as its members in strictly increasing order. Two such sets with the same members
are equal, so the order in which members arrive leaves no trace, and walking the list is the order
in which the set is shown. -/

/-- `a` stands before `b` in the order of the type. -/
abbrev Before {α : Type} [Ord α] (a b : α) : Prop :=
  compare a b = .lt

structure OrderedSet (α : Type) [Ord α] where
  toList : List α
  ordered : toList.Pairwise Before
deriving Repr, DecidableEq

namespace OrderedSet

variable {α : Type} [Ord α]

/-! ## Insertion into a list -/

/-- Puts a value at its place in an increasing list; a value that is there already stays. -/
def insertInto (a : α) : List α → List α
  | [] => [a]
  | b :: bs =>
    match compare a b with
    | .lt => a :: b :: bs
    | .eq => b :: bs
    | .gt => b :: insertInto a bs

theorem mem_of_mem_insertInto {a x : α} {l : List α} (h : x ∈ insertInto a l) : x = a ∨ x ∈ l := by
  induction l with
  | nil => simpa [insertInto] using h
  | cons b bs ih =>
    rw [insertInto] at h
    split at h
    · simpa using h
    · exact Or.inr h
    · rcases List.mem_cons.1 h with h | h
      · exact Or.inr (by simp [h])
      · rcases ih h with h | h
        · exact Or.inl h
        · exact Or.inr (List.mem_cons_of_mem b h)

theorem pairwise_insertInto [Std.TransOrd α] (a : α) {l : List α} (h : l.Pairwise Before) :
    (insertInto a l).Pairwise Before := by
  induction l with
  | nil => simp [insertInto]
  | cons b bs ih =>
    rw [insertInto]
    have hb := List.pairwise_cons.1 h
    split
    next hab =>
      refine List.pairwise_cons.2 ⟨fun x hx => ?_, h⟩
      rcases List.mem_cons.1 hx with rfl | hx
      · exact hab
      · exact Std.TransCmp.lt_trans hab (hb.1 x hx)
    next => exact h
    next hab =>
      refine List.pairwise_cons.2 ⟨fun x hx => ?_, ih hb.2⟩
      rcases mem_of_mem_insertInto hx with rfl | hx
      · exact Std.OrientedCmp.lt_of_gt hab
      · exact hb.1 x hx

/-! ## The set -/

/-- The set without members. -/
def empty : OrderedSet α :=
  ⟨[], List.Pairwise.nil⟩

instance : EmptyCollection (OrderedSet α) := ⟨empty⟩
instance : Inhabited (OrderedSet α) := ⟨empty⟩
instance : Membership α (OrderedSet α) := ⟨fun s a => a ∈ s.toList⟩

instance [DecidableEq α] (a : α) (s : OrderedSet α) : Decidable (a ∈ s) :=
  inferInstanceAs (Decidable (a ∈ s.toList))

def contains [DecidableEq α] (s : OrderedSet α) (a : α) : Bool :=
  decide (a ∈ s)

def size (s : OrderedSet α) : Nat :=
  s.toList.length

def isEmpty (s : OrderedSet α) : Bool :=
  s.toList.isEmpty

variable [Std.TransOrd α]

def insert (s : OrderedSet α) (a : α) : OrderedSet α :=
  ⟨insertInto a s.toList, pairwise_insertInto a s.ordered⟩

/-- Adds the values of a list, in turn. -/
def insertAll (s : OrderedSet α) (values : List α) : OrderedSet α :=
  values.foldl insert s

def ofList (values : List α) : OrderedSet α :=
  empty.insertAll values

end OrderedSet

end Classpath
