import Classpath.Proofs.Document
import Classpath.Proofs.Outcomes
import Classpath.Proofs.Toml.Drafts
import Classpath.Toml.Reader

namespace Classpath.Toml

/-! # Documents that are read are sorted

However a text spells its tables, the document that it holds has the entries of each of them in
increasing order of keys.

1. **Drafts**: every statement keeps the order, whether it changes a table that is there or makes
   one, as long as the value that it brings is sorted.
2. **Texts**: values are sorted, since arrays hold values and inline tables are drafts again. -/

open Document (Sorted)
open OrderedMap (insertInto lookIn)

namespace Draft

/-! ## Drafts -/

/-- Every table of a draft has its entries in increasing order of keys. -/
inductive Sorted : Draft → Prop where
  | value {d : Document} (h : d.Sorted) : Sorted (.value d)
  | table {origin : Origin} {es : Entries} (hkeys : (es.map Prod.fst).Pairwise Before)
      (h : ∀ e ∈ es, Sorted e.2) : Sorted (.table origin es)
  | tables {done : List Entries} {last : Entries}
      (hkeys : ∀ es ∈ last :: done, (es.map Prod.fst).Pairwise Before)
      (h : ∀ es ∈ last :: done, ∀ e ∈ es, Sorted e.2) : Sorted (.tables done last)

/-- The entries of a table, in order themselves and down to the leaves. -/
structure SortedEntries (es : Entries) : Prop where
  keys : (es.map Prod.fst).Pairwise Before
  drafts : ∀ e ∈ es, e.2.Sorted

namespace SortedEntries

variable {es inner : Entries} {key : String} {d : Draft}

theorem nil : SortedEntries [] :=
  ⟨List.Pairwise.nil, by simp⟩

theorem toTable (h : SortedEntries es) (origin : Origin) : (Draft.table origin es).Sorted :=
  .table h.keys h.drafts

theorem of_table {origin : Origin} (h : (Draft.table origin es).Sorted) : SortedEntries es := by
  cases h with
  | table hkeys h => exact ⟨hkeys, h⟩

theorem of_tables {done : List Entries} {last : Entries} (h : (Draft.tables done last).Sorted) :
    ∀ es ∈ last :: done, SortedEntries es := by
  cases h with
  | tables hkeys h => exact fun es hes => ⟨hkeys es hes, h es hes⟩

theorem toTables {done : List Entries} {last : Entries}
    (h : ∀ es ∈ last :: done, SortedEntries es) : (Draft.tables done last).Sorted :=
  .tables (fun es hes => (h es hes).keys) fun es hes => (h es hes).drafts

theorem insert (h : SortedEntries es) (hd : d.Sorted) : SortedEntries (insertInto key d es) := by
  refine ⟨?_, fun e he => ?_⟩
  · rw [OrderedMap.keys_insertInto]
    exact OrderedSet.pairwise_insertInto key h.keys
  · rcases OrderedMap.mem_of_mem_insertInto he with he | he
    · exact he ▸ hd
    · exact h.drafts e he

theorem of_lookIn (h : SortedEntries es) (hlook : lookIn key es = some d) : d.Sorted :=
  h.drafts (key, d) (OrderedMap.mem_of_lookIn hlook)

/-- The last table of an array may be replaced. -/
theorem replaceLast {done : List Entries} {last : Entries} (h : (Draft.tables done last).Sorted)
    (hinner : SortedEntries inner) : (Draft.tables done inner).Sorted := by
  refine toTables fun es hes => ?_
  rcases List.mem_cons.1 hes with rfl | hes
  · exact hinner
  · exact of_tables h es (List.mem_cons_of_mem last hes)

end SortedEntries

/-- A change that keeps the order of a table. -/
def KeepsOrder (change : Entries → Option Entries) : Prop :=
  ∀ es es', SortedEntries es → change es = some es' → SortedEntries es'

theorem KeepsOrder.update {change : Entries → Option Entries} (hchange : KeepsOrder change)
    (path : List String) : KeepsOrder (update change path) := by
  induction path with
  | nil => exact hchange
  | cons k ks ih =>
    intro es es' hes h
    rw [Draft.update] at h
    split at h
    next =>
      obtain ⟨inner, hinner, rfl⟩ := Option.map_eq_some_iff.1 h
      exact hes.insert ((ih _ _ .nil hinner).toTable _)
    next origin _ hlook =>
      obtain ⟨inner, hinner, rfl⟩ := Option.map_eq_some_iff.1 h
      exact hes.insert ((ih _ _ (.of_table (hes.of_lookIn hlook)) hinner).toTable _)
    next hlook =>
      obtain ⟨inner, hinner, rfl⟩ := Option.map_eq_some_iff.1 h
      have hold := hes.of_lookIn hlook
      have hlast := SortedEntries.of_tables hold _ List.mem_cons_self
      exact hes.insert (SortedEntries.replaceLast hold (ih _ _ hlast hinner))
    next => exact absurd h (by simp)

theorem keepsOrder_assign (takes : Bool) (key : String) {d : Document} (hd : d.Sorted)
    (path : List String) : KeepsOrder (assign takes key d path) := by
  induction path generalizing takes with
  | nil =>
    intro es es' hes h
    rw [assign] at h
    split at h
    next =>
      cases h
      exact hes.insert (.value hd)
    next => exact absurd h (by simp)
  | cons k ks ih =>
    intro es es' hes h
    rw [assign] at h
    split at h
    next =>
      obtain ⟨inner, hinner, rfl⟩ := Option.map_eq_some_iff.1 h
      exact hes.insert ((ih true _ _ .nil hinner).toTable _)
    next hlook =>
      obtain ⟨inner, hinner, rfl⟩ := Option.map_eq_some_iff.1 h
      exact hes.insert ((ih true _ _ (.of_table (hes.of_lookIn hlook)) hinner).toTable _)
    next hlook =>
      obtain ⟨inner, hinner, rfl⟩ := Option.map_eq_some_iff.1 h
      exact hes.insert ((ih false _ _ (.of_table (hes.of_lookIn hlook)) hinner).toTable _)
    next hlook =>
      obtain ⟨inner, hinner, rfl⟩ := Option.map_eq_some_iff.1 h
      have hold := hes.of_lookIn hlook
      have hlast := SortedEntries.of_tables hold _ List.mem_cons_self
      exact hes.insert (SortedEntries.replaceLast hold (ih false _ _ hlast hinner))
    next => exact absurd h (by simp)

theorem keepsOrder_openTable (key : String) : KeepsOrder (openTable key) := by
  intro es es' hes h
  rw [openTable] at h
  split at h
  next =>
    cases h
    exact hes.insert (SortedEntries.nil.toTable _)
  next hlook =>
    cases h
    exact hes.insert ((SortedEntries.of_table (hes.of_lookIn hlook)).toTable _)
  next => exact absurd h (by simp)

theorem keepsOrder_addElement (key : String) {element : Entries}
    (helement : SortedEntries element) :
    KeepsOrder (addElement key element) := by
  intro es es' hes h
  rw [addElement] at h
  split at h
  next =>
    cases h
    exact hes.insert (SortedEntries.toTables (by simpa using helement))
  next done last hlook =>
    cases h
    have hold := SortedEntries.of_tables (hes.of_lookIn hlook)
    refine hes.insert (SortedEntries.toTables fun t ht => ?_)
    simp only [List.mem_cons, List.mem_append, List.not_mem_nil, or_false] at ht
    rcases ht with rfl | ht | rfl
    · exact helement
    · exact hold t (List.mem_cons_of_mem last ht)
    · exact hold t List.mem_cons_self
  next => exact absurd h (by simp)

/-! ## Statements -/

end Draft

/-- The value that a statement brings, if it brings one, is sorted. -/
def Statement.Sorted : Statement → Prop
  | .entry _ _ d => d.Sorted
  | .table _ _ => True
  | .element _ _ => True

namespace Draft

/-- The tables of a state are in order, the open one included. -/
def State.Sorted (s : State) : Prop :=
  SortedEntries s.root ∧ ∀ path key es, s.target = .element path key es → SortedEntries es

theorem State.Sorted.complete {s : State} (hs : s.Sorted) {root : Entries}
    (h : s.complete = some root) : SortedEntries root := by
  rw [State.complete] at h
  split at h
  next =>
    cases h
    exact hs.1
  next path key es htarget =>
    exact (keepsOrder_addElement key (hs.2 path key es htarget)).update path _ _ hs.1 h

theorem State.Sorted.change {s s' : State} (hs : s.Sorted) {f : Entries → Option Entries}
    (hf : KeepsOrder f) (h : s.change f = some s') : s'.Sorted := by
  rw [State.change] at h
  split at h
  next path _ =>
    obtain ⟨root, hroot, rfl⟩ := Option.map_eq_some_iff.1 h
    exact ⟨hf.update path _ _ hs.1 hroot, by simp⟩
  next path key es htarget =>
    obtain ⟨es', hes', rfl⟩ := Option.map_eq_some_iff.1 h
    have hsorted := hf _ _ (hs.2 path key es htarget) hes'
    refine ⟨hs.1, fun path' key' es'' heq => ?_⟩
    cases heq
    exact hsorted

theorem State.Sorted.step {s s' : State} (hs : s.Sorted) {statement : Statement}
    (hstatement : statement.Sorted) (h : s.step statement = some s') : s'.Sorted := by
  cases statement with
  | entry path key d => exact hs.change (keepsOrder_assign true key hstatement path) h
  | table path key =>
    obtain ⟨root, hroot, h⟩ := Option.bind_eq_some_iff.1 h
    obtain ⟨opened, hopened, rfl⟩ := Option.map_eq_some_iff.1 h
    exact ⟨(keepsOrder_openTable key).update path _ _ (hs.complete hroot) hopened, by simp⟩
  | element path key =>
    obtain ⟨root, hroot, rfl⟩ := Option.map_eq_some_iff.1 h
    refine ⟨hs.complete hroot, fun path' key' es heq => ?_⟩
    cases heq
    exact .nil

theorem State.Sorted.take {s s' : State} (hs : s.Sorted) {reading : Except Misspelt Statement}
    (hreading : ∀ statement, reading = .ok statement → statement.Sorted)
    (h : s.take reading = .ok s') : s'.Sorted := by
  cases reading with
  | ok statement => exact hs.step (hreading statement rfl) (orMalformed_eq_ok.1 h)
  | error misspelt =>
    cases misspelt with
    | entry flaw => exact absurd h (by simp [State.take])
    | header flaw =>
      obtain ⟨root, -, h⟩ := bind_eq_ok.1 h
      exact absurd h (by simp)

theorem State.Sorted.foldlM {readings : List (Except Misspelt Statement)} {s s' : State}
    (hs : s.Sorted) (hreadings : ∀ statement, .ok statement ∈ readings → statement.Sorted)
    (h : readings.foldlM State.take s = .ok s') : s'.Sorted := by
  induction readings generalizing s with
  | nil =>
    cases h
    exact hs
  | cons reading readings ih =>
    rw [List.foldlM_cons] at h
    obtain ⟨next, hnext, h⟩ := bind_eq_ok.1 h
    have hhere : ∀ statement, reading = .ok statement → statement.Sorted := by
      rintro statement rfl
      exact hreadings statement List.mem_cons_self
    exact ih (hs.take hhere hnext)
      (fun statement hmem => hreadings statement (List.mem_cons_of_mem reading hmem)) h

/-! ## Closing -/

theorem closeTables_eq_map (tables : List Entries) :
    closeTables tables = tables.map fun es => .table (closeEntries es) := by
  induction tables with
  | nil => rfl
  | cons es tables ih => rw [closeTables, ih, List.map_cons]

/-- Closing keeps the keys of a table where they are. -/
theorem sorted_closeEntries {es : Entries} (hkeys : (es.map Prod.fst).Pairwise Before)
    (h : ∀ e ∈ es, e.2.close.Sorted) : (Document.table (closeEntries es)).Sorted := by
  rw [closeEntries_eq_map]
  refine .table ?_ fun e he => ?_
  · rw [List.map_map]
    exact hkeys
  · obtain ⟨x, hx, rfl⟩ := List.mem_map.1 he
    exact h x hx

theorem Sorted.close {d : Draft} (hd : d.Sorted) : d.close.Sorted := by
  induction hd with
  | value h => exact h
  | table hkeys _ ih => exact sorted_closeEntries hkeys ih
  | @tables done last hkeys _ ih =>
    have hclosed (es : Entries) (hes : es ∈ last :: done) :
        (Document.table (closeEntries es)).Sorted :=
      sorted_closeEntries (hkeys es hes) (ih es hes)
    rw [Draft.close, closeTables_eq_map]
    refine .sequence fun d hd => ?_
    rcases List.mem_append.1 hd with hd | hd
    · obtain ⟨es, hes, rfl⟩ := List.mem_map.1 hd
      exact hclosed es (List.mem_cons_of_mem last hes)
    · cases List.mem_singleton.1 hd
      exact hclosed last List.mem_cons_self

/-- Statements with sorted values describe a sorted document. -/
theorem sorted_ofStatements {readings : List (Except Misspelt Statement)}
    (hreadings : ∀ statement, .ok statement ∈ readings → statement.Sorted)
    {entries : List (String × Document)} (h : ofStatements readings = .ok entries) :
    (Document.table entries).Sorted := by
  obtain ⟨s, hs, h⟩ := bind_eq_ok.1 h
  obtain ⟨root, hroot, h⟩ := bind_eq_ok.1 h
  cases h
  have hstart : State.Sorted ⟨[], .inside []⟩ := ⟨.nil, by simp⟩
  have hsorted := (hstart.foldlM hreadings hs).complete (orMalformed_eq_ok.1 hroot)
  exact (hsorted.toTable .opened).close

end Draft

/-! ## Values -/

/-- A reader all of whose values are sorted. -/
def ReadsSorted (readItem : ValueReader) : Prop :=
  ∀ cs d rest, readItem cs = some (.ok d, rest) → d.Sorted

section Nested

variable {readItem : ValueReader}

theorem readArray_sorted (hread : ReadsSorted readItem) {cs rest : List Char}
    {items : List Document} (h : readArray readItem cs = some (.ok items, rest)) :
    ∀ d ∈ items, d.Sorted := by
  -- By the rest of the text, which is shorter behind every comma.
  fun_induction readArray readItem cs generalizing items rest with
  | case1 cs ih =>
    obtain ⟨start, -, h⟩ := Option.bind_eq_some_iff.1 h
    split at h
    next =>
      cases h
      simp
    next =>
      obtain ⟨⟨item, after⟩, hitem, h⟩ := Option.bind_eq_some_iff.1 h
      obtain ⟨next, -, h⟩ := Option.bind_eq_some_iff.1 h
      split at h
      next =>
        simp only [Option.some.injEq, Prod.mk.injEq] at h
        obtain ⟨d, rfl, rfl⟩ := map_eq_ok.1 h.1
        simpa using hread _ _ _ hitem
      next next =>
        split at h
        next hshorter =>
          obtain ⟨⟨others, behind⟩, hothers, h⟩ := Option.map_eq_some_iff.1 h
          simp only [Prod.mk.injEq] at h
          obtain ⟨d, rfl, hmap⟩ := bind_eq_ok.1 h.1
          obtain ⟨ds, rfl, rfl⟩ := map_eq_ok.1 hmap
          intro x hx
          rcases List.mem_cons.1 hx with rfl | hx
          · exact hread _ _ _ hitem
          · exact ih next hshorter hothers x hx
        next => exact absurd h (by simp)
      next => exact absurd h (by simp)

theorem sorted_of_entryOf {dotted : Except TextFlaw Dotted} {value : Except TextFlaw Document}
    {statement : Statement} (h : entryOf dotted value = .ok statement)
    (hvalue : ∀ d, value = .ok d → d.Sorted) : statement.Sorted := by
  obtain ⟨⟨path, key⟩, -, hentry⟩ := bind_eq_ok.1 (mapError_eq_ok.1 h)
  obtain ⟨d, hd, rfl⟩ := map_eq_ok.1 hentry
  exact hvalue d hd

theorem readInlineEntry_sorted (hread : ReadsSorted readItem) {cs rest : List Char}
    {statement : Statement} (h : readInlineEntry readItem cs = some (.ok statement, rest)) :
    statement.Sorted := by
  obtain ⟨mark, -, h⟩ := Option.bind_eq_some_iff.1 h
  split at h
  next =>
    obtain ⟨start, -, h⟩ := Option.bind_eq_some_iff.1 h
    split at h
    next =>
      simp only [Option.some.injEq, Prod.mk.injEq] at h
      exact sorted_of_entryOf h.1 (by simp)
    next =>
      obtain ⟨⟨item, after⟩, hitem, h⟩ := Option.map_eq_some_iff.1 h
      simp only [Prod.mk.injEq] at h
      refine sorted_of_entryOf h.1 ?_
      rintro d rfl
      exact hread _ _ _ hitem
  next =>
    simp only [Option.some.injEq, Prod.mk.injEq] at h
    exact sorted_of_entryOf h.1 (by simp)
  next => exact absurd h (by simp)

theorem readInline_sorted (hread : ReadsSorted readItem) {cs rest : List Char}
    {entries : List (Except Misspelt Statement)}
    (h : readInline readItem cs = some (entries, rest)) :
    ∀ statement, .ok statement ∈ entries → statement.Sorted := by
  fun_induction readInline readItem cs generalizing entries rest with
  | case1 cs ih =>
    obtain ⟨start, -, h⟩ := Option.bind_eq_some_iff.1 h
    split at h
    next =>
      cases h
      simp
    next =>
      obtain ⟨⟨entry, after⟩, hentry, h⟩ := Option.bind_eq_some_iff.1 h
      obtain ⟨next, -, h⟩ := Option.bind_eq_some_iff.1 h
      split at h
      next =>
        cases h
        intro statement hmem
        rw [← List.mem_singleton.1 hmem] at hentry
        exact readInlineEntry_sorted hread hentry
      next next =>
        split at h
        next hshorter =>
          obtain ⟨⟨others, behind⟩, hothers, h⟩ := Option.map_eq_some_iff.1 h
          cases h
          intro statement hmem
          rcases List.mem_cons.1 hmem with rfl | hmem
          · exact readInlineEntry_sorted hread hentry
          · exact ih next hshorter hothers statement hmem
        next => exact absurd h (by simp)
      next => exact absurd h (by simp)

end Nested

theorem sorted_ofInteger (n : Int) : (Document.ofInteger n).Sorted := by
  rw [Document.ofInteger]
  split
  · exact .integer n
  · exact .unreadable

theorem sorted_ofDecimal (negative : Bool) (digits : Nat) (exponent : Int) :
    (Document.ofDecimal negative digits exponent).Sorted := by
  rw [Document.ofDecimal]
  split
  · exact .float _
  · exact .unreadable

theorem readFraction_sorted {negative : Bool} {cs : List Char} {d : Document}
    (h : readFraction negative cs = some d) : d.Sorted := by
  simp only [readFraction] at h
  split at h
  next => exact absurd h (by simp)
  next =>
    split at h
    next =>
      cases h
      exact sorted_ofDecimal _ _ _
    next => exact absurd h (by simp)

theorem readUnsigned_sorted {negative : Bool} {cs : List Char} {d : Document}
    (h : readUnsigned negative cs = some d) : d.Sorted := by
  rw [readUnsigned, readDecimal] at h
  split at h
  next =>
    cases h
    exact .float _
  next =>
    split at h
    next =>
      cases h
      exact .float _
    next =>
      split at h
      next =>
        cases h
        exact sorted_ofInteger _
      next =>
        split at h
        next =>
          cases h
          exact .unreadable
        next => exact readFraction_sorted h

theorem readBased_sorted {base : Nat} {cs : List Char} {d : Document}
    (h : readBased base cs = some d) : d.Sorted := by
  rw [readBased] at h
  split at h
  next =>
    cases h
    exact .unreadable
  next =>
    obtain ⟨digits, -, rfl⟩ := Option.map_eq_some_iff.1 h
    exact sorted_ofInteger _

theorem readNumber_sorted {cs : List Char} {d : Document} (h : readNumber cs = some d) :
    d.Sorted := by
  rw [readNumber.eq_def] at h
  split at h
  · exact readUnsigned_sorted h
  · exact readUnsigned_sorted h
  · exact readBased_sorted h
  · exact readBased_sorted h
  · exact readBased_sorted h
  · exact readUnsigned_sorted h

theorem readWords_sorted {words : List Char} {d : Document} (h : readWords words = some d) :
    d.Sorted := by
  rw [readWords] at h
  split at h
  next =>
    cases h
    exact .boolean true
  next =>
    split at h
    next =>
      cases h
      exact .boolean false
    next =>
      split at h
      next hnumber =>
        cases h
        exact readNumber_sorted hnumber
      next =>
        -- A moment is a table with a single entry.
        obtain ⟨text, -, rfl⟩ := Option.map_eq_some_iff.1 h
        exact .table (List.pairwise_singleton _ _) (by simpa using Sorted.text _)

theorem readPlain_sorted : ReadsSorted readPlain := by
  intro cs d rest h
  simp only [readPlain] at h
  split at h
  next => exact absurd h (by simp)
  next =>
    simp only [Option.some.injEq, Prod.mk.injEq] at h
    exact readWords_sorted (Draft.orMalformed_eq_ok.1 h.1)

theorem readText_sorted {cs rest : List Char} {d : Document} (h : readText cs = (.ok d, rest)) :
    d.Sorted := by
  simp only [readText, Prod.mk.injEq] at h
  obtain ⟨s, -, rfl⟩ := map_eq_ok.1 h.1
  exact .text s

theorem inlineTable_sorted {entries : List (Except Misspelt Statement)}
    (hentries : ∀ statement, .ok statement ∈ entries → statement.Sorted) {d : Document}
    (h : inlineTable entries = .ok d) : d.Sorted := by
  obtain ⟨es, hes, rfl⟩ := map_eq_ok.1 h
  exact Draft.sorted_ofStatements hentries hes

theorem readValue_sorted (depth : Nat) : ReadsSorted (readValue depth) := by
  -- By the depth: the items of an array and the values of an inline table are one level down.
  induction depth using Nat.strongRecOn with
  | ind depth ih =>
    intro cs d rest h
    rw [readValue.eq_def] at h
    split at h
    next => exact readText_sorted (Option.some.inj h)
    next => exact readText_sorted (Option.some.inj h)
    next => exact absurd h (by simp)
    next => exact absurd h (by simp)
    next depth cs =>
      obtain ⟨⟨items, after⟩, hitems, h⟩ := Option.map_eq_some_iff.1 h
      simp only [Prod.mk.injEq] at h
      obtain ⟨ds, rfl, rfl⟩ := map_eq_ok.1 h.1
      exact .sequence (readArray_sorted (ih depth depth.lt_succ_self) hitems)
    next depth cs =>
      obtain ⟨⟨entries, after⟩, hentries, h⟩ := Option.map_eq_some_iff.1 h
      simp only [Prod.mk.injEq] at h
      exact inlineTable_sorted (readInline_sorted (ih depth depth.lt_succ_self) hentries) h.1
    next => exact readPlain_sorted _ _ _ h

/-! ## Texts -/

theorem readUnclosed_sorted {key : KeyReading} {rest : List Char} {statement : Statement}
    (h : readUnclosed key = some (.ok statement, rest)) : statement.Sorted := by
  rw [readUnclosed] at h
  split at h
  · exact absurd h (by simp)
  · obtain ⟨after, -, h⟩ := Option.map_eq_some_iff.1 h
    exact absurd h (by simp)

theorem readEntry_sorted {cs rest : List Char} {statement : Statement}
    (h : readEntry cs = some (.ok statement, rest)) : statement.Sorted := by
  rw [readEntry] at h
  dsimp only at h
  split at h
  next =>
    split at h
    next =>
      obtain ⟨after, -, h⟩ := Option.map_eq_some_iff.1 h
      simp only [Prod.mk.injEq] at h
      exact sorted_of_entryOf h.1 (by simp)
    next =>
      obtain ⟨⟨item, after⟩, hitem, h⟩ := Option.map_eq_some_iff.1 h
      simp only [Prod.mk.injEq] at h
      refine sorted_of_entryOf h.1 ?_
      rintro d rfl
      exact readValue_sorted nestingLimit _ _ _ hitem
  next => exact absurd h (by simp)

theorem readStatement_sorted {cs rest : List Char} {statement : Statement}
    (h : readStatement cs = some (.ok statement, rest)) : statement.Sorted := by
  -- Headers bring no value.
  rw [readStatement.eq_def] at h
  split at h
  next =>
    dsimp only at h
    split at h
    next =>
      simp only [Option.some.injEq, Prod.mk.injEq] at h
      obtain ⟨_, -, rfl⟩ := map_eq_ok.1 (mapError_eq_ok.1 h.1)
      trivial
    next => exact absurd h (by simp)
    next => exact readUnclosed_sorted h
  next =>
    dsimp only at h
    split at h
    next =>
      simp only [Option.some.injEq, Prod.mk.injEq] at h
      obtain ⟨_, -, rfl⟩ := map_eq_ok.1 (mapError_eq_ok.1 h.1)
      trivial
    next => exact readUnclosed_sorted h
  next => exact readEntry_sorted h

theorem readStatements_sorted {cs : List Char} {readings : List (Except Misspelt Statement)}
    (h : readStatements cs = some readings) :
    ∀ statement, .ok statement ∈ readings → statement.Sorted := by
  fun_induction readStatements cs generalizing readings with
  | case1 cs ih =>
    obtain ⟨start, -, h⟩ := Option.bind_eq_some_iff.1 h
    split at h
    next =>
      cases h
      simp
    next =>
      obtain ⟨⟨reading, after⟩, hreading, h⟩ := Option.bind_eq_some_iff.1 h
      obtain ⟨next, -, h⟩ := Option.bind_eq_some_iff.1 h
      split at h
      next hshorter =>
        obtain ⟨others, hothers, rfl⟩ := Option.map_eq_some_iff.1 h
        intro statement hmem
        rcases List.mem_cons.1 hmem with rfl | hmem
        · exact readStatement_sorted hreading
        · exact ih next hshorter hothers statement hmem
      next => exact absurd h (by simp)

/-- The document that a text holds is sorted. -/
theorem read_sorted {text : String} {entries : List (String × Document)}
    (h : read text = .ok entries) : (Document.table entries).Sorted := by
  rw [read] at h
  split at h
  next => exact absurd h (by simp)
  next readings hreadings =>
    exact Draft.sorted_ofStatements (readStatements_sorted hreadings) h

end Classpath.Toml
