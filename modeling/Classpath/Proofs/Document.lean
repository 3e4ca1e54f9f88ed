import Classpath.Document
import Classpath.OrderedMap

namespace Classpath.Document

/-! # Documents: equality and order

Whether two documents are the same can be computed. A document is sorted if each table in it has its
entries in strictly increasing order of keys; then no key stands twice in a table. -/

/-! ## Equality -/

mutual

/-- Whether two documents are the same, part by part. -/
def same : Document → Document → Bool
  | .null, .null => true
  | .boolean value, .boolean other => value = other
  | .integer n, .integer m => n = m
  | .float value, .float other => value = other
  | .unreadable, .unreadable => true
  | .text value, .text other => value = other
  | .sequence items, .sequence others => sameItems items others
  | .table entries, .table others => sameEntries entries others
  | _, _ => false

def sameItems : List Document → List Document → Bool
  | [], [] => true
  | d :: ds, e :: es => d.same e && sameItems ds es
  | _, _ => false

def sameEntries : List (String × Document) → List (String × Document) → Bool
  | [], [] => true
  | (k, d) :: ds, (l, e) :: es => k = l && d.same e && sameEntries ds es
  | _, _ => false

end

mutual

theorem same_iff : ∀ d e : Document, d.same e = true ↔ d = e
  | .sequence items, e => by cases e <;> simp [same, sameItems_iff items]
  | .table entries, e => by cases e <;> simp [same, sameEntries_iff entries]
  | .null, e | .boolean _, e | .integer _, e | .float _, e | .unreadable, e | .text _, e => by
    cases e <;> simp [same]

theorem sameItems_iff : ∀ ds es : List Document, sameItems ds es = true ↔ ds = es
  | [], es => by cases es <;> simp [sameItems]
  | d :: ds, es => by cases es <;> simp [sameItems, same_iff d, sameItems_iff ds]

theorem sameEntries_iff :
    ∀ ds es : List (String × Document), sameEntries ds es = true ↔ ds = es
  | [], es => by cases es <;> simp [sameEntries]
  | (k, d) :: ds, es => by
    cases es <;> simp [sameEntries, same_iff d, sameEntries_iff ds, Prod.ext_iff]

end

instance : DecidableEq Document := fun d e => decidable_of_iff _ (same_iff d e)

/-! ## Order -/

/-- Every table has its entries in increasing order of keys. -/
inductive Sorted : Document → Prop where
  | null : Sorted .null
  | boolean (value : Bool) : Sorted (.boolean value)
  | integer (value : Int) : Sorted (.integer value)
  | float (value : Decimal.Binary64) : Sorted (.float value)
  | unreadable : Sorted .unreadable
  | text (value : String) : Sorted (.text value)
  | sequence {items : List Document} (h : ∀ d ∈ items, Sorted d) : Sorted (.sequence items)
  | table {entries : List (String × Document)} (hkeys : (entries.map Prod.fst).Pairwise Before)
      (h : ∀ e ∈ entries, Sorted e.2) : Sorted (.table entries)

namespace Sorted

variable {items : List Document} {entries : List (String × Document)}

theorem of_mem_items (h : (Document.sequence items).Sorted) : ∀ d ∈ items, d.Sorted := by
  cases h with
  | sequence h => exact h

theorem of_mem_entries (h : (Document.table entries).Sorted) : ∀ e ∈ entries, e.2.Sorted := by
  cases h with
  | table _ h => exact h

theorem keys (h : (Document.table entries).Sorted) :
    (entries.map Prod.fst).Pairwise Before := by
  cases h with
  | table hkeys _ => exact hkeys

theorem nodup_keys (h : (Document.table entries).Sorted) : (entries.map Prod.fst).Nodup :=
  h.keys.imp fun hab heq => by simp [Before, heq] at hab

end Sorted

end Classpath.Document
