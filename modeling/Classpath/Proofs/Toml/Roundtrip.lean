import Classpath.Proofs.Toml.Drafts
import Classpath.Proofs.Toml.Statements

namespace Classpath

/-! # Written documents read back

A document whose values can be spelled and whose tables do not nest too deep is read back from its
text. Only the order of entries gets lost: every table that is read has its entries in increasing
order of keys. -/

/-! ## Documents in order -/

namespace Document

mutual

/-- The document with the entries of every table in increasing order of keys. -/
def ordered : Document → Document
  | .sequence items => .sequence (orderedItems items)
  | .table entries => .table (OrderedMap.ofList (orderedEntries entries)).entries
  | d => d

def orderedItems : List Document → List Document
  | [] => []
  | d :: ds => d.ordered :: orderedItems ds

def orderedEntries : List (String × Document) → List (String × Document)
  | [] => []
  | (key, d) :: es => (key, d.ordered) :: orderedEntries es

end

theorem orderedItems_eq_map (items : List Document) : orderedItems items = items.map ordered := by
  induction items with
  | nil => rfl
  | cons d ds ih => rw [orderedItems, ih, List.map_cons]

theorem orderedEntries_eq_map (entries : List (String × Document)) :
    orderedEntries entries = entries.map fun e => (e.1, e.2.ordered) := by
  induction entries with
  | nil => rfl
  | cons e es ih => rw [orderedEntries, ih, List.map_cons]

theorem keys_orderedEntries (entries : List (String × Document)) :
    (orderedEntries entries).map Prod.fst = entries.map Prod.fst := by
  rw [orderedEntries_eq_map, List.map_map]
  rfl

/-- The entries of a table in increasing order of keys, and the tables below them so too. -/
def inOrder (entries : List (String × Document)) : List (String × Document) :=
  (OrderedMap.ofList (orderedEntries entries)).entries

theorem ordered_table (entries : List (String × Document)) :
    (Document.table entries).ordered = .table (inOrder entries) := by
  rw [ordered, inOrder]

theorem lookIn_inOrder {entries : List (String × Document)} (h : (entries.map Prod.fst).Nodup)
    (name : String) :
    OrderedMap.lookIn name (inOrder entries) = (OrderedMap.lookIn name entries).map ordered := by
  -- Ordering the values leaves the keys as they are.
  have hkeys : ((orderedEntries entries).map Prod.fst).Nodup := by
    rw [keys_orderedEntries]
    exact h
  rw [inOrder, OrderedMap.lookIn_entries_ofList hkeys, orderedEntries_eq_map,
    OrderedMap.lookIn_map]

theorem mem_inOrder {entries : List (String × Document)} (h : (entries.map Prod.fst).Nodup)
    {e : String × Document} : e ∈ inOrder entries ↔ ∃ x ∈ entries, (x.1, x.2.ordered) = e := by
  have hkeys : ((orderedEntries entries).map Prod.fst).Nodup := by
    rw [keys_orderedEntries]
    exact h
  rw [inOrder, OrderedMap.mem_entries_ofList hkeys, orderedEntries_eq_map, List.mem_map]

end Document

namespace Toml

open Document (inOrder orderedEntries orderedItems orderedEntries_eq_map orderedItems_eq_map)

/-! ## Writable documents -/

/-- The documents that have a text: plain values, tables with different keys, and sequences of such
tables, with headers nested at most so deep. -/
inductive Writable : Nat → Document → Prop where
  | plain {room : Nat} {d : Document} (h : IsPlain nestingLimit d) : Writable room d
  | table {room : Nat} {entries : List (String × Document)}
      (hkeys : (entries.map Prod.fst).Nodup) (h : ∀ e ∈ entries, Writable room e.2) :
      Writable (room + 1) (.table entries)
  | tables {room : Nat} {tables : List (List (String × Document))} (hne : tables ≠ [])
      (hkeys : ∀ t ∈ tables, (t.map Prod.fst).Nodup)
      (h : ∀ t ∈ tables, ∀ e ∈ t, Writable room e.2) :
      Writable (room + 1) (.sequence (tables.map .table))

/-- A list of tables is writable with and without elements; in the latter case it stands as an empty
array and has no headers. -/
theorem Writable.items {room : Nat} {tables : List (List (String × Document))}
    (hkeys : ∀ t ∈ tables, (t.map Prod.fst).Nodup)
    (h : ∀ t ∈ tables, ∀ e ∈ t, Writable room e.2) :
    Writable (room + 1) (.sequence (tables.map .table)) := by
  by_cases hnone : tables = []
  · rw [hnone]
    refine Writable.plain ?_
    intro d hd
    exact absurd hd List.not_mem_nil
  · exact Writable.tables hnone hkeys h

theorem not_isPlain_table (depth : Nat) (entries : List (String × Document)) :
    ¬ IsPlain depth (.table entries) := by
  cases depth <;> exact id

/-- Plain values have no headers and no tables inside that could change their order. -/
theorem IsPlain.facts {depth : Nat} {d : Document} (h : IsPlain depth d) :
    hasHeaders d = false ∧ isNull d = false ∧ Draft.ofDocument d = .value d ∧ d.ordered = d := by
  induction depth generalizing d with
  | zero =>
    cases d with
    | boolean value => exact ⟨rfl, rfl, rfl, rfl⟩
    | integer n => exact ⟨rfl, rfl, rfl, rfl⟩
    | text value => exact ⟨rfl, rfl, rfl, rfl⟩
    | _ => exact absurd h id
  | succ depth ih =>
    cases d with
    | boolean value => exact ⟨rfl, rfl, rfl, rfl⟩
    | integer n => exact ⟨rfl, rfl, rfl, rfl⟩
    | text value => exact ⟨rfl, rfl, rfl, rfl⟩
    | sequence items =>
      have hordered : orderedItems items = items := by
        rw [orderedItems_eq_map]
        exact (List.map_congr_left fun d hd => (ih (h d hd)).2.2.2).trans (List.map_id items)
      cases items with
      | nil => exact ⟨rfl, rfl, rfl, rfl⟩
      | cons item items =>
        have hitem : IsPlain depth item := h item List.mem_cons_self
        -- One item that is no table is enough to keep the sequence on its line.
        have htable : isTable item = false := by
          cases item with
          | table entries => exact absurd hitem (not_isPlain_table depth entries)
          | _ => rfl
        refine ⟨by simp [hasHeaders, htable], rfl, ?_, congrArg Document.sequence hordered⟩
        cases item with
        | table entries => exact absurd htable (by simp [isTable])
        | _ => rfl
    | _ => exact absurd h id

/-- Whatever has no headers is plain. -/
theorem Writable.isPlain {room : Nat} {d : Document} (h : Writable room d)
    (hnone : hasHeaders d = false) : IsPlain nestingLimit d := by
  cases h with
  | plain h => exact h
  | table hkeys h => simp [hasHeaders] at hnone
  | tables hne hkeys h =>
    have hall : ∀ tables : List (List (String × Document)),
        (tables.map Document.table).all isTable = true := by
      intro tables
      simp [List.all_map, isTable, Function.comp_def]
    simp [hasHeaders, hall, hne] at hnone

/-! ## The statements are spelled right -/

theorem isSpelled_plainEntries {room : Nat} {entries : List (String × Document)}
    (h : ∀ e ∈ entries, Writable room e.2) : ∀ s ∈ plainEntries entries, s.IsSpelled := by
  intro s hs
  obtain ⟨e, he, rfl⟩ := List.mem_map.1 hs
  obtain ⟨he, hkind⟩ := List.mem_filter.1 he
  simp only [Bool.and_eq_true, Bool.not_eq_eq_eq_not, Bool.not_true] at hkind
  exact ⟨by decide, (h e he).isPlain hkind.1⟩

theorem mem_headedEntries {path : List String} {entries : List (String × Document)} {s : Statement}
    (hs : s ∈ headedEntries path entries) : ∃ e ∈ entries, s ∈ headed path e.1 e.2 := by
  induction entries with
  | nil => simp [headedEntries] at hs
  | cons e es ih =>
    rw [headedEntries] at hs
    rcases List.mem_append.1 hs with hs | hs
    · split at hs
      · exact ⟨e, List.mem_cons_self, hs⟩
      · simp at hs
    · rcases ih hs with ⟨x, hx, hs⟩
      exact ⟨x, List.mem_cons_of_mem e hx, hs⟩

theorem mem_headedItems {path : List String} {key : String}
    {tables : List (List (String × Document))} {s : Statement}
    (hs : s ∈ headedItems path key (tables.map .table)) :
    s = .element path key ∨ ∃ t ∈ tables, s ∈ plainEntries t ∨
      s ∈ headedEntries (path ++ [key]) t := by
  induction tables with
  | nil => simp [headedItems] at hs
  | cons t ts ih =>
    rw [List.map_cons, headedItems, List.mem_append, List.mem_append, List.mem_cons] at hs
    rcases hs with ((hs | hs) | hs) | hs
    · exact Or.inl hs
    · exact Or.inr ⟨t, List.mem_cons_self, Or.inl hs⟩
    · exact Or.inr ⟨t, List.mem_cons_self, Or.inr hs⟩
    · rcases ih hs with hs | ⟨x, hx, hs⟩
      · exact Or.inl hs
      · exact Or.inr ⟨x, List.mem_cons_of_mem t hx, hs⟩

theorem IsPlain.headed {depth : Nat} {d : Document} (h : IsPlain depth d) (path : List String)
    (key : String) : headed path key d = [] := by
  have hnone := h.facts.1
  cases d with
  | table entries => simp [hasHeaders] at hnone
  | sequence items =>
    cases items with
    | nil => rfl
    | cons item items =>
      cases item with
      | table entries =>
        cases depth with
        | zero => exact absurd h id
        | succ depth => exact absurd (h _ List.mem_cons_self) (not_isPlain_table depth entries)
      | _ => rfl
  | _ => rfl

/-- A path and the headers below it never reach the limit together. -/
theorem isSpelled_headed {room : Nat} {d : Document} (h : Writable room d) {path : List String}
    (key : String) (hpath : path.length + room ≤ pathLimit) :
    ∀ s ∈ headed path key d, s.IsSpelled := by
  -- Each header adds one key to the path and takes one from the room.
  induction h generalizing path key with
  | @plain room d h =>
    intro s hs
    simp [h.headed] at hs
  | @table room entries hkeys h ih =>
    have hbelow : (path ++ [key]).length + room ≤ pathLimit := by
      simp only [List.length_append, List.length_singleton]
      omega
    intro s hs
    rw [headed, List.mem_append, List.mem_cons] at hs
    rcases hs with (rfl | hs) | hs
    · change path.length < pathLimit
      omega
    · exact isSpelled_plainEntries h s hs
    · rcases mem_headedEntries hs with ⟨e, he, hs⟩
      exact ih e he e.1 hbelow s hs
  | @tables room tables hne hkeys h ih =>
    have hbelow : (path ++ [key]).length + room ≤ pathLimit := by
      simp only [List.length_append, List.length_singleton]
      omega
    intro s hs
    rw [headed] at hs
    rcases mem_headedItems hs with rfl | ⟨t, ht, hs | hs⟩
    · change path.length < pathLimit
      omega
    · exact isSpelled_plainEntries (h t ht) s hs
    · rcases mem_headedEntries hs with ⟨e, he, hs⟩
      exact ih t ht e he e.1 hbelow s hs

/-! ## The statements make the document -/

theorem Writable.describes {room : Nat} {d : Document} (h : Writable room d) :
    hasHeaders d = true ∧ Draft.Settles d ∨
      hasHeaders d = false ∧ isNull d = false ∧ Draft.ofDocument d = .value d := by
  induction h with
  | plain h => exact Or.inr ⟨h.facts.1, h.facts.2.1, h.facts.2.2.1⟩
  | table hkeys h ih => exact Or.inl ⟨rfl, Draft.Describable.settles ⟨hkeys, ih⟩⟩
  | @tables room tables hne hkeys h ih =>
    refine Or.inl ⟨?_, Draft.settles_tables hne fun t ht => ⟨hkeys t ht, ih t ht⟩⟩
    simp [hasHeaders, hne, List.all_map, isTable, Function.comp_def]

/-- Closing keeps the order of the entries and changes the values one by one. -/
theorem Draft.closeEntries_ofList {entries : List (String × Document)}
    (h : ∀ e ∈ entries, (ofDocument e.2).close = e.2.ordered) :
    closeEntries (OrderedMap.ofList (ofEntries entries)).entries =
      inOrder entries := by
  have hvalues : (ofEntries entries).map (fun e => (e.1, e.2.close)) = orderedEntries entries := by
    rw [ofEntries_eq_map, orderedEntries_eq_map, List.map_map]
    refine List.map_congr_left fun e he => ?_
    simp [h e he]
  rw [closeEntries_eq_map, OrderedMap.map_entries_ofList Draft.close, hvalues, inOrder]

theorem Draft.closeTables_append (ts us : List Entries) :
    closeTables (ts ++ us) = closeTables ts ++ closeTables us := by
  induction ts with
  | nil => rfl
  | cons t ts ih => rw [List.cons_append, closeTables, ih, closeTables, List.cons_append]

theorem Draft.close_ofTables (done : List Entries) (last : Entries) (ts : List Entries) :
    (ofTables done last ts).close =
      .sequence (closeTables done ++ .table (closeEntries last) :: closeTables ts) := by
  induction ts generalizing done last with
  | nil => rfl
  | cons t ts ih =>
    rw [ofTables, ih, closeTables_append]
    simp [closeTables]

theorem Draft.closeTables_ofItems {tables : List (List (String × Document))}
    (h : ∀ t ∈ tables, ∀ e ∈ t, (ofDocument e.2).close = e.2.ordered) :
    closeTables (ofItems (tables.map .table)) = orderedItems (tables.map .table) := by
  induction tables with
  | nil => rfl
  | cons t ts ih =>
    have hclosed := closeEntries_ofList (h t List.mem_cons_self)
    have hrest := ih fun t ht => h t (List.mem_cons_of_mem _ ht)
    simp only [List.map_cons, ofItems, closeTables, orderedItems, Document.ordered_table, hclosed,
      hrest]

/-- The draft of a document closes to the document in order. -/
theorem Writable.close {room : Nat} {d : Document} (h : Writable room d) :
    (Draft.ofDocument d).close = d.ordered := by
  induction h with
  | plain h => rw [h.facts.2.2.1, h.facts.2.2.2, Draft.close]
  | table hkeys h ih =>
    rw [Draft.ofDocument, Draft.close, Document.ordered_table, Draft.closeEntries_ofList ih]
  | @tables room tables hne hkeys h ih =>
    cases tables with
    | nil => exact absurd rfl hne
    | cons t ts =>
      rw [Document.ordered, ← Draft.closeTables_ofItems ih]
      rw [List.map_cons, Draft.ofDocument, Draft.ofItems, Draft.close_ofTables]
      rfl

/-! ## The round trip -/

/-- The tables that have a text of their own. -/
def WritableTable (entries : List (String × Document)) : Prop :=
  (entries.map Prod.fst).Nodup ∧ ∀ e ∈ entries, Writable pathLimit e.2

theorem WritableTable.isSpelled {entries : List (String × Document)} (h : WritableTable entries) :
    ∀ s ∈ statements entries, s.IsSpelled := by
  intro s hs
  rcases List.mem_append.1 hs with hs | hs
  · exact isSpelled_plainEntries h.2 s hs
  · rcases mem_headedEntries hs with ⟨e, he, hs⟩
    have hroot : ([] : List String).length + pathLimit ≤ pathLimit := by simp
    exact isSpelled_headed (h.2 e he) e.1 hroot s hs

theorem WritableTable.ofStatements {entries : List (String × Document)} (h : WritableTable entries) :
    Draft.ofStatements ((statements entries).map .ok) =
      .ok (inOrder entries) := by
  have hdescribable : Draft.Describable entries := ⟨h.1, fun e he => (h.2 e he).describes⟩
  have hclose := Draft.closeEntries_ofList fun e he => (h.2 e he).close
  rw [Draft.ofStatements_ok, Draft.settle_statements hdescribable, ← hclose]
  rfl

/-- A table is read back from its text, below lines that hold nothing. -/
theorem read_below {entries : List (String × Document)} (h : WritableTable entries)
    {blank : List Char} (hblank : ∀ t, skipBlanks false (blank ++ t) = skipBlanks false t)
    (hmark : dropMark (blank ++ (statements entries).flatMap writtenStatement) =
      blank ++ (statements entries).flatMap writtenStatement) :
    read (String.ofList blank ++ write entries) =
      .ok (inOrder entries) := by
  rw [read, write, String.toList_append, String.toList_ofList, String.toList_ofList, hmark,
    readStatements_all h.isSpelled hblank]
  exact h.ofStatements

/-- A table is read back from its text. -/
theorem read_write {entries : List (String × Document)} (h : WritableTable entries) :
    read (write entries) = .ok (inOrder entries) := by
  have hread : read (String.ofList [] ++ write entries) = .ok (inOrder entries) :=
    read_below h (fun _ => rfl) (dropMark_written _)
  simpa using hread

/-- A comment runs to the end of its line. -/
theorem skipBlanks_comment {cs : List Char} (h : ∀ c ∈ cs, isControl c = false) (t : List Char) :
    skipBlanks true (cs ++ '\n' :: t) = skipBlanks false t := by
  induction cs with
  | nil => simp [skipBlanks, isLineBreak]
  | cons c cs ih =>
    have hc : isControl c = false := h c List.mem_cons_self
    -- Line breaks are controls, so the comment goes on.
    have hbreak : isLineBreak c (cs ++ '\n' :: t) = false := by
      have hnewline : c ≠ '\n' := by
        rintro rfl
        simp [isControl] at hc
      have hreturn : c ≠ '\r' := by
        rintro rfl
        simp [isControl] at hc
      simp [isLineBreak, hnewline, hreturn]
    rw [List.cons_append, skipBlanks]
    simp only [hbreak, hc]
    exact ih fun c hc => h c (List.mem_cons_of_mem _ hc)

/-- A table is read back from its text below a comment. -/
theorem read_below_comment {entries : List (String × Document)} (h : WritableTable entries)
    {cs : List Char} (hcs : ∀ c ∈ cs, isControl c = false) :
    read (String.ofList ('#' :: cs ++ ['\n']) ++ write entries) =
      .ok (inOrder entries) := by
  refine read_below h (fun t => ?_) ?_
  · have hcomment := skipBlanks_comment hcs t
    simpa [skipBlanks, isLineBreak, isSpace] using hcomment
  · exact dropMark_cons (by decide) _

end Toml

end Classpath
