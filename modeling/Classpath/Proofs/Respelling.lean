import Classpath.Proofs.Document
import Classpath.Proofs.Outcomes
import Classpath.Proofs.Records

namespace Classpath.Document

/-! # Records spelled in another way

A record says the same if each of its fields does. A field with a default may as well be left out
where it holds it, and what stands beside the known fields, or behind them in a sequence, says
nothing.

1. **Fields**: when two records say the same, field by field.
2. **Reading**: if the tests of the fields go by what the fields say, so does reading the record.
3. **Values**: the same for the values that are taken from the fields. -/

open OrderedMap (lookIn)

/-! ## Documents of texts -/

/-- A document as a text can hold it, where every number has a value. -/
structure Regular (d : Document) : Prop where
  sorted : d.Sorted
  readable : d.isReadable = true

namespace Regular

variable {items : List Document} {entries : List (String × Document)}

theorem item (h : (Document.sequence items).Regular) : ∀ d ∈ items, d.Regular := fun d hd =>
  ⟨h.sorted.of_mem_items d hd, areReadable_iff.1 h.readable d hd⟩

theorem entry (h : (Document.table entries).Regular) : ∀ e ∈ entries, e.2.Regular := fun e he =>
  ⟨h.sorted.of_mem_entries e he, entriesReadable_iff.1 h.readable e he⟩

theorem of_lookIn (h : (Document.table entries).Regular) {name : String} {d : Document}
    (hlook : lookIn name entries = some d) : d.Regular :=
  h.entry (name, d) (OrderedMap.mem_of_lookIn hlook)

end Regular

/-! ## Fields -/

/-- How a field may be spelled: its default, if it has one, and which values say the same. -/
structure Spelling where
  name : String
  default : Option Document
  Same : Document → Document → Prop

/-- A field in two records. -/
inductive Spelling.Respelled (f : Spelling) : Option Document → Option Document → Prop where
  | missing : f.Respelled none none
  | same {d e : Document} (h : f.Same d e) : f.Respelled (some d) (some e)
  /-- The default was written out, and now it is not. -/
  | dropped {d : Document} (h : f.default = some d) : f.Respelled (some d) none
  | added {e : Document} (h : f.default = some e) : f.Respelled none (some e)

/-- A field without a default that has to keep its value. -/
theorem Spelling.respelled_eq_iff {name : String} {d e : Option Document} :
    Spelling.Respelled ⟨name, none, Eq⟩ d e ↔ d = e := by
  constructor
  · intro h
    cases h with
    | missing => rfl
    | same h => rw [h]
    | dropped h => exact absurd h (by simp)
    | added h => exact absurd h (by simp)
  · rintro rfl
    cases d with
    | none => exact .missing
    | some d => exact .same rfl

/-- Two records that say the same in certain fields. -/
inductive Respelled (fields : List Spelling) : Document → Document → Prop where
  | table {entries others : List (String × Document)}
      (h : ∀ f ∈ fields, f.Respelled (lookIn f.name entries) (lookIn f.name others)) :
      Respelled fields (.table entries) (.table others)
  /-- The fields by their places. -/
  | sequence {items others : List Document}
      (h : ∀ (i : Nat) (f : Spelling), fields[i]? = some f → f.Respelled items[i]? others[i]?) :
      Respelled fields (.sequence items) (.sequence others)

/-- Reading goes by what a document says. -/
def Respects {α : Type} (read : Document → Read α) (Same : Document → Document → Prop) : Prop :=
  ∀ d e x, Same d e → e.Regular → read d = .ok x → read e = .ok x

theorem respects_eq {α : Type} (read : Document → Read α) : Respects read Eq := by
  rintro d _ x rfl _ h
  exact h

/-- A field of a record whose test goes by what the field says, and whose default passes it. -/
structure Spelling.Fits (g : Spelling) (f : Field) : Prop where
  name : f.name = g.name
  test : Respects f.test g.Same
  default : ∀ d, g.default = some d → f.required = false ∧ f.test d = .ok ()

theorem Respects.test {α : Type} {read : Document → Read α} {Same : Document → Document → Prop}
    (h : Respects read Same) : Respects (fun d => (read d).map fun _ => ()) Same := by
  intro d e x hsame he hd
  obtain ⟨value, hvalue, rfl⟩ := map_eq_ok.1 hd
  exact map_eq_ok.2 ⟨value, h d e value hsame he hvalue, rfl⟩

theorem Spelling.fits_needed {α : Type} (name : String) {read : Document → Read α}
    {Same : Document → Document → Prop} (h : Respects read Same) :
    Spelling.Fits ⟨name, none, Same⟩ (.needed name read) :=
  ⟨rfl, h.test, by simp⟩

theorem Spelling.fits_defaulted {α : Type} (name : String) {read : Document → Read α}
    {Same : Document → Document → Prop} (h : Respects read Same) {default : Option Document}
    (hdefault : ∀ d, default = some d → ∃ x, read d = .ok x) :
    Spelling.Fits ⟨name, default, Same⟩ (.defaulted name read) := by
  refine ⟨rfl, h.test, fun d hd => ⟨rfl, ?_⟩⟩
  obtain ⟨x, hx⟩ := hdefault d hd
  exact map_eq_ok.2 ⟨x, hx, rfl⟩

/-! ## Reading -/

namespace Spelling

variable {g : Spelling} {f : Field} {d e : Option Document}

/-- A value that says what a value that passes its test says passes it too. -/
theorem Respelled.test (h : g.Respelled d e) (hfits : g.Fits f)
    (hd : ∀ value, d = some value → f.test value = .ok ()) {value : Document} (he : e = some value)
    (hvalue : value.Regular) : f.test value = .ok () := by
  cases h with
  | missing => exact absurd he (by simp)
  | same hsame =>
    cases he
    exact hfits.test _ _ () hsame hvalue (hd _ rfl)
  | dropped => exact absurd he (by simp)
  | added hdefault =>
    cases he
    exact (hfits.default _ hdefault).2

/-- A field that has to be there does not go missing. -/
theorem Respelled.not_required (h : g.Respelled d e) (hfits : g.Fits f) (he : e = none)
    (hd : d = none → f.required = false) : f.required = false := by
  cases h with
  | missing => exact hd rfl
  | same => exact absurd he (by simp)
  | dropped hdefault => exact (hfits.default _ hdefault).1
  | added => exact absurd he (by simp)

end Spelling

/-- The fields that were found in two records say the same. -/
def Fields.Respelled (fields : List Spelling) (found others : Fields) : Prop :=
  ∀ g ∈ fields, g.Respelled (lookIn g.name found) (lookIn g.name others) ∧
    ∀ value, lookIn g.name others = some value → value.Regular

namespace Shape

variable {s : Shape} {fields : List Spelling}

/-- A table is a record if its entries pass their tests and nothing that is needed is missing. -/
theorem read_table_eq_ok_iff {entries : List (String × Document)} {found : Fields} :
    s.read .toml (.table entries) = .ok found ↔ found = entries ∧
      (∀ e ∈ entries, s.testEntry e = .ok ()) ∧
        ∀ f ∈ s.fields, lookIn f.name entries = none → f.required = false := by
  have hmissing : s.missing? entries = none ↔
      ∀ f ∈ s.fields, lookIn f.name entries = none → f.required = false := by
    rw [missing?, Option.map_eq_none_iff, List.find?_eq_none]
    refine forall₂_congr fun f _ => ?_
    simp only [Bool.and_eq_true, Option.isNone_iff_eq_none, not_and']
    exact imp_congr_right fun _ => Bool.not_eq_true _ ▸ Iff.rfl
  rw [← hmissing, ← testEntries_eq_ok_iff, read]
  cases s.testEntries entries with
  | error p => simp
  | ok _ =>
    cases s.missing? entries with
    | none => simp [eq_comm]
    | some name => simp

theorem testEntry_eq_ok {e : String × Document} (hopen : s.closed = false)
    (hreadable : e.2.isReadable = true)
    (h : ∀ f, s.fields.find? (·.name = e.1) = some f → f.test e.2 = .ok ()) :
    s.testEntry e = .ok () := by
  rw [testEntry]
  split
  next f hf => exact h f hf
  next =>
    rw [hopen, hreadable]
    rfl

theorem test_of_testEntry {e : String × Document} (h : s.testEntry e = .ok ()) {f : Field}
    (hf : s.fields.find? (·.name = e.1) = some f) : f.test e.2 = .ok () := by
  rw [testEntry, hf] at h
  exact h

/-- Each known field has its spelling. -/
theorem exists_fits {known : List Field} (hfits : List.Forall₂ Spelling.Fits fields known)
    {f : Field} (hf : f ∈ known) : ∃ g ∈ fields, g.Fits f := by
  induction hfits with
  | nil => exact absurd hf List.not_mem_nil
  | @cons g f' fields known hgf _ ih =>
    rcases List.mem_cons.1 hf with rfl | hf
    · exact ⟨g, List.mem_cons_self, hgf⟩
    · obtain ⟨g', hg', hfits⟩ := ih hf
      exact ⟨g', List.mem_cons_of_mem g hg', hfits⟩

/-- A table that says the same in all fields is read as well. -/
theorem read_table_respelled (hopen : s.closed = false)
    (hfits : List.Forall₂ Spelling.Fits fields s.fields) {entries others : List (String × Document)}
    (h : ∀ g ∈ fields, g.Respelled (lookIn g.name entries) (lookIn g.name others))
    (hothers : (Document.table others).Regular) {found : Fields}
    (hfound : s.read .toml (.table entries) = .ok found) :
    s.read .toml (.table others) = .ok others ∧ found.Respelled fields others := by
  obtain ⟨rfl, htests, hneeded⟩ := read_table_eq_ok_iff.1 hfound
  refine ⟨read_table_eq_ok_iff.2 ⟨rfl, fun e he => ?_, fun f hf hnone => ?_⟩, fun g hg => ?_⟩
  · refine testEntry_eq_ok hopen (hothers.entry e he).readable fun f hf => ?_
    have hname : f.name = e.1 := by simpa using List.find?_some hf
    obtain ⟨g, hg, hgf⟩ := exists_fits hfits (List.mem_of_find?_eq_some hf)
    have hlook : lookIn g.name others = some e.2 := by
      rw [← hgf.name, hname]
      exact (OrderedMap.lookIn_eq_some_iff hothers.sorted.nodup_keys).2 he
    refine (h g hg).test hgf (fun d hd => ?_) hlook (hothers.entry e he)
    -- Both records have their value tested by the same field.
    rw [← hgf.name, hname] at hd
    exact test_of_testEntry (htests (e.1, d) (OrderedMap.mem_of_lookIn hd)) hf
  · obtain ⟨g, hg, hgf⟩ := exists_fits hfits hf
    refine (h g hg).not_required hgf (hgf.name ▸ hnone) fun hd => ?_
    exact hneeded f hf (hgf.name ▸ hd)
  · exact ⟨h g hg, fun value hvalue => hothers.of_lookIn hvalue⟩

/-! ### Sequences -/

/-- The first field has the first item, if there is one, and the others have the rest. -/
theorem readSequence_cons_iff {size index : Nat} {f : Field} {known : List Field}
    {items : List Document} {found : Fields} :
    s.readSequence .toml size index (f :: known) items = .ok found ↔
      (items[0]? = none → f.required = false) ∧ (∀ d, items[0]? = some d → f.test d = .ok ()) ∧
        ∃ rest, s.readSequence .toml size (index + 1) known items.tail = .ok rest ∧
          found = (items[0]?.map fun d => (f.name, d)).toList ++ rest := by
  cases items with
  | nil =>
    rw [readSequence]
    cases f.required <;> simp
  | cons item items =>
    rw [readSequence]
    cases hitem : f.test item with
    | error p => simp [hitem]
    | ok _ =>
      refine map_eq_ok.trans ⟨?_, ?_⟩
      · rintro ⟨rest, hrest, rfl⟩
        exact ⟨by simp, by simp [hitem], rest, hrest, rfl⟩
      · rintro ⟨-, -, rest, hrest, rfl⟩
        exact ⟨rest, hrest, rfl⟩

theorem lookIn_append_first {name other : String} (d : Option Document) (rest : Fields) :
    lookIn other ((d.map fun d => (name, d)).toList ++ rest) =
      if name = other then d.or (lookIn other rest) else lookIn other rest := by
  cases d with
  | none => simp
  | some d => simp [lookIn]

/-- Nothing is found under a name that no field has. -/
theorem lookIn_readSequence {size index : Nat} {known : List Field} {items : List Document}
    {found : Fields} (h : s.readSequence .toml size index known items = .ok found) {name : String}
    (hname : ∀ f ∈ known, f.name ≠ name) : lookIn name found = none := by
  induction known generalizing index items found with
  | nil => cases items <;> (cases h; rfl)
  | cons f known ih =>
    obtain ⟨-, -, rest, hrest, rfl⟩ := readSequence_cons_iff.1 h
    rw [lookIn_append_first, if_neg (hname f List.mem_cons_self)]
    exact ih hrest fun g hg => hname g (List.mem_cons_of_mem f hg)

/-- And so is a sequence. -/
theorem readSequence_respelled {size size' index : Nat} {known : List Field}
    (hfits : List.Forall₂ Spelling.Fits fields known) (hnames : (fields.map Spelling.name).Nodup)
    {items others : List Document}
    (h : ∀ (i : Nat) (g : Spelling), fields[i]? = some g → g.Respelled items[i]? others[i]?)
    (hothers : ∀ d ∈ others, d.Regular) {found : Fields}
    (hfound : s.readSequence .toml size index known items = .ok found) :
    ∃ found', s.readSequence .toml size' index known others = .ok found' ∧
      found.Respelled fields found' := by
  induction hfits generalizing index items others found with
  | nil => exact ⟨[], by cases others <;> rfl, fun g hg => absurd hg List.not_mem_nil⟩
  | @cons g f fields known hgf hlater ih =>
    obtain ⟨hfresh, hnames⟩ := List.nodup_cons.1 hnames
    obtain ⟨hneeded, htest, rest, hrest, rfl⟩ := readSequence_cons_iff.1 hfound
    have hfirst : g.Respelled items[0]? others[0]? := h 0 g rfl
    have hbehind : ∀ (i : Nat) (g : Spelling), fields[i]? = some g →
        g.Respelled items.tail[i]? others.tail[i]? := by
      intro i g' hg'
      rw [List.getElem?_tail, List.getElem?_tail]
      exact h (i + 1) g' hg'
    have hregular : ∀ d ∈ others.tail, d.Regular := fun d hd => hothers d (List.mem_of_mem_tail hd)
    obtain ⟨rest', hrest', hsame⟩ := ih hnames hbehind hregular hrest
    refine ⟨_, readSequence_cons_iff.2 ⟨?_, ?_, rest', hrest', rfl⟩, ?_⟩
    · exact fun hnone => hfirst.not_required hgf hnone hneeded
    · exact fun d hd => hfirst.test hgf htest hd (hothers d (List.mem_of_getElem? hd))
    · -- The name of the first field does not come again, so each name finds its own item.
      have hother : ∀ f' ∈ known, f'.name ≠ g.name := by
        intro f' hf' heq
        obtain ⟨g', hg', hfits⟩ := exists_fits hlater hf'
        exact hfresh (List.mem_map.2 ⟨g', hg', hfits.name ▸ heq⟩)
      intro g' hg'
      rw [lookIn_append_first, lookIn_append_first, hgf.name]
      rcases List.mem_cons.1 hg' with rfl | hg'
      · rw [if_pos rfl, if_pos rfl, lookIn_readSequence hrest hother,
          lookIn_readSequence hrest' hother, Option.or_none, Option.or_none]
        exact ⟨hfirst, fun d hd => hothers d (List.mem_of_getElem? hd)⟩
      · have hne : g.name ≠ g'.name := fun heq => hfresh (heq ▸ List.mem_map_of_mem hg')
        rw [if_neg hne, if_neg hne]
        exact hsame g' hg'

/-- A record that says the same as one that can be read can be read itself, and what is found in
the two of them says the same. -/
theorem read_respelled (hopen : s.closed = false)
    (hfits : List.Forall₂ Spelling.Fits fields s.fields)
    (hnames : (fields.map Spelling.name).Nodup) {d e : Document} (h : d.Respelled fields e)
    (he : e.Regular) {found : Fields} (hfound : s.read .toml d = .ok found) :
    ∃ found', s.read .toml e = .ok found' ∧ found.Respelled fields found' := by
  cases h with
  | table h => exact ⟨_, read_table_respelled hopen hfits h he hfound⟩
  | sequence h => exact readSequence_respelled hfits hnames h he.item hfound

end Shape

/-! ## Values -/

namespace Fields

variable {α : Type} {read : Document → Read α} {fields : List Spelling} {found others : Fields}

/-- A field with a default has the same value in both records. -/
theorem Respelled.getD (h : found.Respelled fields others) {g : Spelling} (hg : g ∈ fields)
    (hread : Respects read g.Same) {default : α}
    (hdefault : ∀ d, g.default = some d → read d = .ok default) {x : α}
    (hx : found.getD g.name read default = .ok x) : others.getD g.name read default = .ok x := by
  obtain ⟨hsame, hregular⟩ := h g hg
  rw [Fields.getD] at hx ⊢
  generalize lookIn g.name found = d at hx hsame
  generalize lookIn g.name others = e at hregular hsame
  cases hsame with
  | missing => exact hx
  | same hsame => exact hread _ _ x hsame (hregular _ rfl) hx
  | dropped hd => exact (hdefault _ hd).symm.trans hx
  | added he => exact (hdefault _ he).trans hx

/-- And so has a field without one. -/
theorem Respelled.need (h : found.Respelled fields others) {g : Spelling} (hg : g ∈ fields)
    (hread : Respects read g.Same) (hdefault : g.default = none) {x : α}
    (hx : found.need g.name read = .ok x) : others.need g.name read = .ok x := by
  obtain ⟨hsame, hregular⟩ := h g hg
  rw [Fields.need] at hx ⊢
  generalize lookIn g.name found = d at hx hsame
  generalize lookIn g.name others = e at hregular hsame
  cases hsame with
  | missing => exact hx
  | same hsame => exact hread _ _ x hsame (hregular _ rfl) hx
  | dropped hd => exact absurd (hdefault.symm.trans hd) (by simp)
  | added he => exact absurd (hdefault.symm.trans he) (by simp)

end Fields

/-! ## Lists -/

/-- Lists that say the same item by item, in the same order, are read alike. -/
theorem readItems_of_forall₂ {α : Type} {read : Document → Read α}
    {Same : Document → Document → Prop} (hread : Respects read Same) {items others : List Document}
    (h : List.Forall₂ Same items others) (hothers : ∀ d ∈ others, d.Regular) {xs : List α}
    (hxs : readItems read items = .ok xs) : readItems read others = .ok xs := by
  rw [readItems_eq_mapM] at hxs ⊢
  induction h generalizing xs with
  | nil => exact hxs
  | @cons d e ds es hsame _ ih =>
    rw [mapM_cons] at hxs ⊢
    obtain ⟨x, hx, hrest⟩ := bind_eq_ok.1 hxs
    obtain ⟨ys, hys, rfl⟩ := map_eq_ok.1 hrest
    have he : read e = .ok x := hread d e x hsame (hothers e List.mem_cons_self) hx
    have hes := ih (fun d hd => hothers d (List.mem_cons_of_mem e hd)) hys
    exact bind_eq_ok.2 ⟨x, he, map_eq_ok.2 ⟨ys, hes, rfl⟩⟩

end Classpath.Document
