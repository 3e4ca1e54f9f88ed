import Classpath.Document.Record
import Classpath.Proofs.Outcomes
import Classpath.Proofs.Toml.Roundtrip

namespace Classpath

/-! # Records read back

A record is looked up by the names of its fields, so a table holds the same record in any order of
its entries. What is written as a sequence or a map is read item by item. -/

namespace Document

/-! ## Plain values -/

theorem asText_ordered (value : String) : asText (Document.text value).ordered = .ok value :=
  rfl

theorem asBoolean_ordered (value : Bool) :
    asBoolean (Document.boolean value).ordered = .ok value :=
  rfl

/-- The words are the integers from zero to `2 ^ 32 - 1`. -/
theorem asWord32_eq_ok_iff {d : Document} {n : Nat} :
    asWord32 d = .ok n ↔ d = .integer n ∧ n < Nat.pow 2 32 := by
  have hword : ((Nat.pow 2 32 : Nat) : Int) = 4294967296 := by decide
  cases d with
  | integer value =>
    rw [asWord32, hword]
    simp only [Document.integer.injEq]
    constructor
    · intro h
      split at h
      next hfits =>
        cases h
        omega
      next => split at h <;> exact absurd h (by simp)
    · rintro ⟨rfl, hn⟩
      rw [if_pos (by omega)]
      rfl
  | _ => simp [asWord32]

/-! ## Items -/

theorem readItems_eq_mapM {α : Type} (read : Document → Read α) (items : List Document) :
    readItems read items = items.mapM read := by
  induction items with
  | nil => rfl
  | cons d ds ih =>
    rw [mapM_cons, readItems, ih]
    cases read d with
    | error p => rfl
    | ok x => cases List.mapM read ds <;> rfl

/-- Items that are read back one by one are read back as a list. -/
theorem readItems_map {α : Type} {read : Document → Read α} {write : α → Document} {xs : List α}
    (h : ∀ x ∈ xs, read (write x) = .ok x) : readItems read (xs.map write) = .ok xs := by
  induction xs with
  | nil => rfl
  | cons x xs ih =>
    have hx : read (write x) = .ok x := h x List.mem_cons_self
    have hxs := ih fun y hy => h y (List.mem_cons_of_mem x hy)
    rw [List.map_cons, readItems, hx, hxs]

/-- A list is read back from its items, each of them in order. -/
theorem asList_ordered {α : Type} {read : Document → Read α} {write : α → Document} {xs : List α}
    (h : ∀ x ∈ xs, read (write x).ordered = .ok x) :
    asList read (Document.sequence (xs.map write)).ordered = .ok xs := by
  have hitems : (Document.sequence (xs.map write)).ordered =
      .sequence (xs.map fun x => (write x).ordered) := by
    rw [ordered, orderedItems_eq_map, List.map_map]
    rfl
  rw [hitems, asList]
  exact readItems_map h

/-- Every item of a list that was read comes from some document. -/
theorem mem_of_readItems {α : Type} {read : Document → Read α} {ds : List Document} {xs : List α}
    (h : readItems read ds = .ok xs) : ∀ x ∈ xs, ∃ d, read d = .ok x := by
  induction ds generalizing xs with
  | nil =>
    cases h
    simp
  | cons d ds ih =>
    rw [readItems] at h
    cases hd : read d with
    | error problem => simp [hd] at h
    | ok x =>
      cases hds : readItems read ds with
      | error problem => simp [hd, hds] at h
      | ok others =>
        simp only [hd, hds, Except.ok.injEq] at h
        subst h
        intro y hy
        rcases List.mem_cons.1 hy with rfl | hy
        · exact ⟨d, hd⟩
        · exact ih hds y hy

theorem readTexts_map (entries : List (String × String)) :
    readTexts (entries.map fun e => (e.1, .text e.2)) = .ok entries := by
  induction entries with
  | nil => rfl
  | cons e es ih =>
    rw [List.map_cons, readTexts, ih]
    rfl

/-! ## Tables in order -/

/-- Whatever can be written can be walked through. -/
theorem entriesReadable_iff {entries : List (String × Document)} :
    entriesReadable entries = true ↔ ∀ e ∈ entries, e.2.isReadable = true := by
  induction entries with
  | nil => simp [entriesReadable]
  | cons e es ih => simp [entriesReadable, ih]

theorem areReadable_iff {items : List Document} :
    areReadable items = true ↔ ∀ d ∈ items, d.isReadable = true := by
  induction items with
  | nil => simp [areReadable]
  | cons d ds ih => simp [areReadable, ih]

theorem isReadable_of_isPlain {depth : Nat} {d : Document} (h : Toml.IsPlain depth d) :
    d.isReadable = true := by
  induction depth generalizing d with
  | zero =>
    cases d with
    | unreadable => exact absurd h id
    | sequence items => exact absurd h id
    | table entries => exact absurd h id
    | _ => rfl
  | succ depth ih =>
    cases d with
    | unreadable => exact absurd h id
    | sequence items => exact areReadable_iff.2 fun d hd => ih (h d hd)
    | table entries => exact absurd h id
    | _ => rfl

theorem isReadable_table {entries : List (String × Document)} (h : (entries.map Prod.fst).Nodup)
    (hentries : ∀ e ∈ entries, e.2.ordered.isReadable = true) :
    (Document.table entries).ordered.isReadable = true := by
  rw [ordered_table]
  refine entriesReadable_iff.2 fun e he => ?_
  rcases (mem_inOrder h).1 he with ⟨x, hx, rfl⟩
  exact hentries x hx

theorem isReadable_ordered {room : Nat} {d : Document} (h : Toml.Writable room d) :
    d.ordered.isReadable = true := by
  induction h with
  | plain h =>
    rw [h.facts.2.2.2]
    exact isReadable_of_isPlain h
  | table hkeys h ih => exact isReadable_table hkeys ih
  | tables hne hkeys h ih =>
    rw [ordered, orderedItems_eq_map]
    refine areReadable_iff.2 fun d hd => ?_
    rcases List.mem_map.1 hd with ⟨item, hitem, rfl⟩
    rcases List.mem_map.1 hitem with ⟨t, ht, rfl⟩
    exact isReadable_table (hkeys t ht) (ih t ht)

theorem Shape.testEntries_eq_ok_iff {s : Shape} {entries : List (String × Document)} :
    s.testEntries entries = .ok () ↔ ∀ e ∈ entries, s.testEntry e = .ok () := by
  induction entries with
  | nil => simp [testEntries]
  | cons e es ih =>
    rw [testEntries, List.forall_mem_cons]
    cases s.testEntry e with
    | error p => simp
    | ok _ => simpa using ih

/-- If all other entries of a table pass their tests, the one of a name decides about the table. -/
theorem Shape.testEntries_of_others {s : Shape} {name : String}
    {entries : List (String × Document)} (hkeys : (entries.map Prod.fst).Nodup)
    (h : ∀ e ∈ entries, e.1 ≠ name → s.testEntry e = .ok ()) :
    s.testEntries entries =
      ((OrderedMap.lookIn name entries).elim (.ok ()) fun d => s.testEntry (name, d)) := by
  induction entries with
  | nil => rfl
  | cons e es ih =>
    obtain ⟨hfresh, hkeys⟩ := List.nodup_cons.1 hkeys
    have hothers : ∀ x ∈ es, x.1 ≠ name → s.testEntry x = .ok () :=
      fun x hx => h x (List.mem_cons_of_mem e hx)
    rw [testEntries, OrderedMap.lookIn]
    by_cases hname : e.1 = name
    · -- The name does not come again, so nothing else can go wrong.
      have hrest : s.testEntries es = .ok () := by
        refine testEntries_eq_ok_iff.2 fun x hx => hothers x hx ?_
        rintro rfl
        exact hfresh (hname ▸ List.mem_map_of_mem hx)
      rw [if_pos hname, hrest, Option.elim_some, ← hname]
      cases s.testEntry e <;> rfl
    · rw [if_neg hname, h e List.mem_cons_self hname]
      exact ih hkeys hothers

/-- A record is read from a table in order if each entry passes its test and no field that has to
be there is missing. -/
theorem Shape.read_inOrder {s : Shape} (format : Format) {entries : List (String × Document)}
    (hkeys : (entries.map Prod.fst).Nodup)
    (htest : ∀ e ∈ entries, s.testEntry (e.1, e.2.ordered) = .ok ())
    (hneeded : ∀ f ∈ s.fields, f.required = true → f.name ∈ entries.map Prod.fst) :
    s.read format (.table (inOrder entries)) = .ok (inOrder entries) := by
  have htests : s.testEntries (inOrder entries) = .ok () := by
    refine testEntries_eq_ok_iff.2 fun e he => ?_
    rcases (mem_inOrder hkeys).1 he with ⟨x, hx, rfl⟩
    exact htest x hx
  -- Ordering moves entries but drops none, so the needed fields are still there.
  have hmissing : s.missing? (inOrder entries) = none := by
    rw [missing?, Option.map_eq_none_iff, List.find?_eq_none]
    intro f hf hnone
    simp only [Bool.and_eq_true, Option.isNone_iff_eq_none, lookIn_inOrder hkeys,
      Option.map_eq_none_iff, OrderedMap.lookIn_eq_none_iff] at hnone
    exact hnone.2 (hneeded f hf hnone.1)
  rw [read, htests]
  dsimp only
  rw [hmissing]

/-! ## Fields -/

namespace Fields

variable {α : Type} {read : Document → Read α} {entries : List (String × Document)}
  {name : String} {d : Document} {x : α}

theorem need_inOrder (hkeys : (entries.map Prod.fst).Nodup) (hmem : (name, d) ∈ entries)
    (hread : read d.ordered = .ok x) : Fields.need (inOrder entries) name read = .ok x := by
  have hlook : OrderedMap.lookIn name entries = some d :=
    (OrderedMap.lookIn_eq_some_iff hkeys).2 hmem
  rw [need, lookIn_inOrder hkeys, hlook]
  exact hread

theorem getD_inOrder (hkeys : (entries.map Prod.fst).Nodup) (hmem : (name, d) ∈ entries)
    (hread : read d.ordered = .ok x) (default : α) :
    Fields.getD (inOrder entries) name read default = .ok x := by
  have hlook : OrderedMap.lookIn name entries = some d :=
    (OrderedMap.lookIn_eq_some_iff hkeys).2 hmem
  rw [getD, lookIn_inOrder hkeys, hlook]
  exact hread

/-- A value that may be missing is read back from its entry, or from there being none. -/
theorem getD_inOrder_optional (write : α → Document) {value : Option α}
    (hkeys : (entries.map Prod.fst).Nodup)
    (hentry : ∀ d, (name, d) ∈ entries ↔ value.map write = some d)
    (hread : ∀ x, value = some x → asOptional read (write x).ordered = .ok (some x)) :
    Fields.getD (inOrder entries) name (asOptional read) none = .ok value := by
  cases value with
  | none =>
    have hlook : OrderedMap.lookIn name entries = none := by
      rw [Option.eq_none_iff_forall_ne_some]
      intro d hd
      have hmem := (hentry d).1 (OrderedMap.mem_of_lookIn hd)
      cases hmem
    rw [getD, lookIn_inOrder hkeys, hlook]
    rfl
  | some x =>
    exact getD_inOrder hkeys ((hentry (write x)).2 rfl) (hread x rfl) none

/-- A field that was read has its default, or comes from a document. -/
theorem getD_eq_ok {fields : Fields} {default : α} (h : fields.getD name read default = .ok x) :
    x = default ∨ ∃ d, read d = .ok x := by
  rw [getD] at h
  split at h
  · exact Or.inr ⟨_, h⟩
  · cases h
    exact Or.inl rfl

theorem need_eq_ok {fields : Fields} (h : fields.need name read = .ok x) :
    ∃ d, read d = .ok x := by
  rw [need] at h
  split at h
  · exact ⟨_, h⟩
  · exact absurd h (by simp)

end Fields

end Document

end Classpath
