import Classpath.Json.Writer
import Mathlib.Data.List.Basic

namespace Classpath.Json

/-! # What is on the lines of a JSON text

A plain text stands between its quotes as it is. Each entry of a table starts on a new line, and
what comes before it has no part in how it is written. -/

/-! ## Strings -/

/-- A text without quotes, backslashes and controls stands between its quotes as it is. -/
theorem writtenText_of_plain {s : String} (h : ∀ c ∈ s.toList, escaped c = [c]) :
    writtenText s = '"' :: s.toList ++ ['"'] := by
  have hsame : s.toList.flatMap escaped = s.toList := by
    rw [List.flatMap_congr h, List.flatMap_singleton']
  rw [writtenText, hsame]

theorem escaped_hexDigit : ∀ n < 16, escaped (Text.hexDigit n) = [Text.hexDigit n] := by
  decide

theorem escaped_of_mem_hexByte {b : UInt8} {c : Char} (h : c ∈ Text.hexByte b) :
    escaped c = [c] := by
  have hlow : b.toNat % 16 < 16 := Nat.mod_lt _ (by decide)
  have hhigh : b.toNat / 16 < 16 := Nat.div_lt_of_lt_mul b.toNat_lt
  simp only [Text.hexByte, List.mem_cons, List.not_mem_nil, or_false] at h
  rcases h with rfl | rfl
  · exact escaped_hexDigit _ hhigh
  · exact escaped_hexDigit _ hlow

/-! ## Entries -/

theorem written_table (level : Nat) (entries : List (String × Document)) (h : entries ≠ []) :
    written level (.table entries) =
      '\x7b' :: writtenEntries (level + 1) entries ++ newline level ++ ['\x7d'] := by
  rw [written]
  exact h

theorem writtenEntries_cons_cons (level : Nat) (key : String) (d : Document)
    (e : String × Document) (es : List (String × Document)) :
    writtenEntries level ((key, d) :: e :: es) =
      newline level ++ writtenText key ++ ": ".toList ++ written level d ++
        ',' :: writtenEntries level (e :: es) := by
  rw [writtenEntries]
  simp

/-- Entries start on a new line. -/
theorem writtenEntries_cons (level : Nat) (e : String × Document) (es : List (String × Document)) :
    ∃ rest, writtenEntries level (e :: es) = '\n' :: rest := by
  cases es with
  | nil =>
    rw [writtenEntries, newline]
    exact ⟨_, rfl⟩
  | cons next es =>
    rw [writtenEntries_cons_cons, newline]
    exact ⟨_, rfl⟩

/-- Entries are written the same whatever comes before them. -/
theorem writtenEntries_append (level : Nat) (before : List (String × Document))
    (e : String × Document) (es : List (String × Document)) :
    ∃ above, writtenEntries level (before ++ e :: es) =
      above ++ writtenEntries level (e :: es) := by
  induction before with
  | nil => exact ⟨[], rfl⟩
  | cons first before ih =>
    obtain ⟨above, habove⟩ := ih
    obtain ⟨next, rest, hrest⟩ := List.exists_cons_of_ne_nil
      (show before ++ e :: es ≠ [] by simp)
    rw [List.cons_append, hrest, writtenEntries_cons_cons, ← hrest, habove, ← List.cons_append,
      ← List.append_assoc]
    exact ⟨_, rfl⟩

end Classpath.Json
