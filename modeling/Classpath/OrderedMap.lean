import Classpath.OrderedSet

namespace Classpath

/-! # Maps in increasing key order

A finite map kept as its entries in strictly increasing order of keys, so that each key stands once
and two maps with the same look-ups are equal. A later entry for a key replaces the value of an
earlier one. -/

structure OrderedMap (κ ν : Type) [Ord κ] where
  entries : List (κ × ν)
  ordered : (entries.map Prod.fst).Pairwise Before
deriving Repr, DecidableEq

namespace OrderedMap

variable {κ ν : Type}

/-! ## Looking up in a list of entries -/

/-- The value under a key. -/
def lookIn [DecidableEq κ] (k : κ) : List (κ × ν) → Option ν
  | [] => none
  | e :: es => if e.1 = k then some e.2 else lookIn k es

/-- The list without the entry of a key. -/
def eraseFrom [DecidableEq κ] (k : κ) (l : List (κ × ν)) : List (κ × ν) :=
  l.filter fun e => e.1 ≠ k

theorem lookIn_eraseFrom [DecidableEq κ] (k k' : κ) (l : List (κ × ν)) :
    lookIn k' (eraseFrom k l) = if k = k' then none else lookIn k' l := by
  induction l with
  | nil => simp [eraseFrom, lookIn]
  | cons e es ih =>
    simp only [eraseFrom] at ih ⊢
    rw [List.filter_cons]
    grind [lookIn]

/-! ## Insertion into a list of entries -/

variable [Ord κ]

/-- Puts an entry at its place in a list with increasing keys; a key that is there already gets the
new value. -/
def insertInto (k : κ) (v : ν) : List (κ × ν) → List (κ × ν)
  | [] => [(k, v)]
  | e :: es =>
    match compare k e.1 with
    | .lt => (k, v) :: e :: es
    | .eq => (e.1, v) :: es
    | .gt => e :: insertInto k v es

/-- Replacing a value leaves the keys as they are, and any other insertion is the insertion of the
key. -/
theorem keys_insertInto (k : κ) (v : ν) (l : List (κ × ν)) :
    (insertInto k v l).map Prod.fst = OrderedSet.insertInto k (l.map Prod.fst) := by
  induction l with
  | nil => rfl
  | cons e es ih =>
    rw [insertInto, List.map_cons, OrderedSet.insertInto]
    split <;> simp_all

theorem lookIn_insertInto [DecidableEq κ] [Std.LawfulEqOrd κ] (k k' : κ) (v : ν)
    (l : List (κ × ν)) :
    lookIn k' (insertInto k v l) = if k = k' then some v else lookIn k' l := by
  induction l with
  | nil => rfl
  | cons e es ih =>
    rw [insertInto]
    split
    next => rfl
    next h =>
      have hk : k = e.1 := Std.LawfulEqOrd.eq_of_compare h
      subst hk
      simp only [lookIn]
      split <;> rfl
    next h =>
      have hk : k ≠ e.1 := fun hk => by simp [hk] at h
      simp only [lookIn, ih]
      grind

/-! ## The map -/

def empty : OrderedMap κ ν :=
  ⟨[], by simp⟩

instance : EmptyCollection (OrderedMap κ ν) := ⟨empty⟩
instance : Inhabited (OrderedMap κ ν) := ⟨empty⟩

def get? [DecidableEq κ] (m : OrderedMap κ ν) (k : κ) : Option ν :=
  lookIn k m.entries

def size (m : OrderedMap κ ν) : Nat :=
  m.entries.length

def isEmpty (m : OrderedMap κ ν) : Bool :=
  m.entries.isEmpty

/-- The map without a key. -/
def erase [DecidableEq κ] (m : OrderedMap κ ν) (k : κ) : OrderedMap κ ν :=
  ⟨eraseFrom k m.entries, m.ordered.sublist (List.filter_sublist.map Prod.fst)⟩

theorem get?_erase [DecidableEq κ] (m : OrderedMap κ ν) (k k' : κ) :
    (m.erase k).get? k' = if k = k' then none else m.get? k' :=
  lookIn_eraseFrom k k' m.entries

variable [Std.TransOrd κ]

def insert (m : OrderedMap κ ν) (k : κ) (v : ν) : OrderedMap κ ν :=
  ⟨insertInto k v m.entries, by
    rw [keys_insertInto]
    exact OrderedSet.pairwise_insertInto k m.ordered⟩

theorem get?_insert [DecidableEq κ] [Std.LawfulEqOrd κ] (m : OrderedMap κ ν) (k k' : κ) (v : ν) :
    (m.insert k v).get? k' = if k = k' then some v else m.get? k' :=
  lookIn_insertInto k k' v m.entries

/-- Adds the entries of a list, in turn. -/
def insertAll (m : OrderedMap κ ν) (entries : List (κ × ν)) : OrderedMap κ ν :=
  entries.foldl (fun m e => m.insert e.1 e.2) m

def ofList (entries : List (κ × ν)) : OrderedMap κ ν :=
  empty.insertAll entries

end OrderedMap

end Classpath
