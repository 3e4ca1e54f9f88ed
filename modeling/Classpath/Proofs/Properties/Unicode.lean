import Classpath.Properties
import Mathlib.Data.List.Induction

namespace Classpath

/-! # Numbered characters in property texts

A `\u` is meant to stand before four hexadecimal digits that number a character. Two other forms are
taken for a number as well: fewer digits, where the key or the value ends too early, and digits
after a plus sign.

1. **Numbers**: the digits, what they spell, and the reader of numbers.
2. **Places**: what stands before an escape is read without it, and so is what comes after its four
   characters.
3. **Forms**: which of them name a character; all others stay as they are. -/

namespace Text

/-! ## Numbers -/

/-- A hexadecimal digit, in either case, and what it is worth. -/
def IsHexDigit (c : Char) (value : Nat) : Prop :=
  "0123456789abcdef".toList[value]? = some c ∨ "0123456789ABCDEF".toList[value]? = some c

instance (c : Char) (value : Nat) : Decidable (IsHexDigit c value) :=
  inferInstanceAs (Decidable (_ ∨ _))

/-- Hexadecimal digits spell a number, each sixteen times what it would be worth one place later. -/
inductive Spells : List Char → Nat → Prop where
  | nil : Spells [] 0
  | snoc {digits : List Char} {number value : Nat} {c : Char} (hdigits : Spells digits number)
      (hc : IsHexDigit c value) : Spells (digits ++ [c]) (16 * number + value)

theorem toNat_lt_of_hexDigit? {c : Char} {value : Nat} (h : hexDigit? c = some value) :
    c.toNat < 128 := by
  have hbelow {top : Char} (htop : top.toNat < 128) (hc : c ≤ top) : c.toNat < 128 :=
    Nat.lt_of_le_of_lt hc htop
  unfold hexDigit? at h
  split at h
  next hrange => exact hbelow (by decide) hrange.2
  next =>
    split at h
    next hrange => exact hbelow (by decide) hrange.2
    next =>
      split at h
      next hrange => exact hbelow (by decide) hrange.2
      next => cases h

theorem hexDigit?_eq_some_iff {c : Char} {value : Nat} :
    hexDigit? c = some value ↔ IsHexDigit c value := by
  constructor
  · intro h
    have hascii : ∀ n : Fin 128, ∀ v ∈ hexDigit? (Char.ofNat n), IsHexDigit (Char.ofNat n) v := by
      decide
    have hc := hascii ⟨c.toNat, toNat_lt_of_hexDigit? h⟩ value
    rw [Char.ofNat_toNat] at hc
    exact hc h
  · intro h
    have hdigits : ∀ v : Fin 16, hexDigit? "0123456789abcdef".toList[v] = some v.val ∧
        hexDigit? "0123456789ABCDEF".toList[v] = some v.val := by
      decide
    rcases h with h | h
    · obtain ⟨hlt, rfl⟩ := List.getElem?_eq_some_iff.1 h
      exact (hdigits ⟨value, hlt⟩).1
    · obtain ⟨hlt, rfl⟩ := List.getElem?_eq_some_iff.1 h
      exact (hdigits ⟨value, hlt⟩).2

theorem hexNumber?_snoc (start : Nat) (digits : List Char) (c : Char) :
    hexNumber? start (digits ++ [c]) =
      (hexNumber? start digits).bind fun n => (hexDigit? c).map fun d => 16 * n + d := by
  induction digits generalizing start with
  | nil =>
    cases hc : hexDigit? c with
    | none => simp [hexNumber?, hc]
    | some d => simp [hexNumber?, hc]
  | cons e digits ih =>
    rw [List.cons_append, hexNumber?, hexNumber?]
    cases hexDigit? e with
    | none => rfl
    | some d => exact ih (16 * start + d)

theorem hexNumber?_eq_some_iff {digits : List Char} {number : Nat} :
    hexNumber? 0 digits = some number ↔ Spells digits number := by
  constructor
  · intro h
    induction digits using List.reverseRecOn generalizing number with
    | nil =>
      cases h
      exact Spells.nil
    | append_singleton digits c ih =>
      rw [hexNumber?_snoc] at h
      obtain ⟨n, hn, h⟩ := Option.bind_eq_some_iff.1 h
      obtain ⟨d, hd, rfl⟩ := Option.map_eq_some_iff.1 h
      exact Spells.snoc (ih hn) (hexDigit?_eq_some_iff.1 hd)
  · intro h
    induction h with
    | nil => rfl
    | snoc _ hc ih => rw [hexNumber?_snoc, ih, hexDigit?_eq_some_iff.2 hc]; rfl

/-- A plus sign is no digit. -/
theorem not_spells_plus {digits : List Char} {number : Nat} : ¬ Spells ('+' :: digits) number := by
  rw [← hexNumber?_eq_some_iff]
  have hplus : hexDigit? '+' = none := by decide
  simp [hexNumber?, hplus]

end Text

namespace Properties

open Text (Spells hexNumber? scalar? trim)

/-! ## Places -/

/-- A text in which no escape is left open at the end. -/
inductive Closed : List Char → Prop where
  | nil : Closed []
  | plain {c : Char} {cs : List Char} (hc : c ≠ '\\') (hcs : Closed cs) : Closed (c :: cs)
  | escaped {c : Char} {cs : List Char} (hc : c ≠ 'u') (hcs : Closed cs) : Closed ('\\' :: c :: cs)
  | numbered {cs : List Char} (a b c d : Char) (hcs : Closed cs) :
      Closed ('\\' :: 'u' :: a :: b :: c :: d :: cs)

theorem unescape_append {before : List Char} (h : Closed before) (rest : List Char) :
    unescape (before ++ rest) = unescape before ++ unescape rest := by
  induction h with
  | nil => rfl
  | @plain c cs hc _ ih =>
    have hstep (cs : List Char) : unescape (c :: cs) = c :: unescape cs := by
      rw [unescape]
      all_goals simp [hc]
    rw [List.cons_append, hstep, hstep, ih, List.cons_append]
  | @escaped c cs hc _ ih =>
    have hstep (cs : List Char) : unescape ('\\' :: c :: cs) = plainEscape c :: unescape cs := by
      rw [unescape]
      all_goals simp [hc]
    rw [List.cons_append, List.cons_append, hstep, hstep, ih, List.cons_append]
  | numbered a b c d _ ih =>
    simp only [List.cons_append, unescape, ih, List.append_assoc]

/-- An escape takes the four characters after it, or all that are left. -/
theorem unescape_numbered (after : List Char) :
    unescape ('\\' :: 'u' :: after) = unicodeEscape (after.take 4) ++ unescape (after.drop 4) := by
  match after with
  | [] => rfl
  | [a] => simp [unescape]
  | [a, b] => simp [unescape]
  | [a, b, c] => simp [unescape]
  | a :: b :: c :: d :: cs => simp [unescape]

/-! ## Forms -/

/-- Four digits number a character. -/
def Names (digits : List Char) (c : Char) : Prop :=
  digits.length = 4 ∧ Spells digits c.toNat

/-- Fewer digits, or digits after a plus sign, that are taken for the number of a character. -/
def Suggests (digits : List Char) (c : Char) : Prop :=
  (digits.length < 4 ∧ digits ≠ [] ∧ Spells digits c.toNat) ∨
    ∃ bare, digits = '+' :: bare ∧ bare ≠ [] ∧ Spells bare c.toNat

theorem hexNumber?_bind_scalar? {digits : List Char} {c : Char} :
    (hexNumber? 0 digits).bind scalar? = some c ↔ Spells digits c.toNat := by
  rw [Option.bind_eq_some_iff]
  constructor
  · rintro ⟨n, hn, hc⟩
    rw [Text.scalar?_eq_some_iff.1 hc]
    exact Text.hexNumber?_eq_some_iff.1 hn
  · intro h
    exact ⟨c.toNat, Text.hexNumber?_eq_some_iff.2 h, Text.scalar?_eq_some_iff.2 rfl⟩

theorem namedChar?_of_ne {digits : List Char} (h : ∀ bare, digits ≠ '+' :: bare) :
    namedChar? digits = if digits = [] then none else (hexNumber? 0 digits).bind scalar? := by
  unfold namedChar?
  dsimp only
  split
  next bare => exact absurd rfl (h bare)
  next => rfl

/-- The digits in either form are all that is taken for a number. -/
theorem namedChar?_eq_some_iff {digits : List Char} (hlength : digits.length ≤ 4) {c : Char} :
    namedChar? digits = some c ↔ Names digits c ∨ Suggests digits c := by
  unfold Names Suggests
  by_cases hplus : ∃ bare, digits = '+' :: bare
  · obtain ⟨bare, rfl⟩ := hplus
    have hsigned : namedChar? ('+' :: bare) =
        if bare = [] then none else (hexNumber? 0 bare).bind scalar? := rfl
    rw [hsigned]
    by_cases hbare : bare = []
    · simp [hbare, Text.not_spells_plus]
    · simp [hbare, hexNumber?_bind_scalar?, Text.not_spells_plus]
  · have hbare : ∀ bare, digits ≠ '+' :: bare := fun bare h => hplus ⟨bare, h⟩
    have hsigned : ¬ ∃ bare, digits = '+' :: bare ∧ bare ≠ [] ∧ Spells bare c.toNat := by
      rintro ⟨bare, h, -⟩
      exact hbare bare h
    rw [namedChar?_of_ne hbare]
    by_cases hnil : digits = []
    · simp [hnil]
    · rw [if_neg hnil, hexNumber?_bind_scalar?, or_iff_left hsigned]
      constructor
      · intro h
        rcases Nat.lt_or_eq_of_le hlength with hshort | hfour
        · exact Or.inr ⟨hshort, hnil, h⟩
        · exact Or.inl ⟨hfour, h⟩
      · rintro (⟨-, h⟩ | ⟨-, -, h⟩)
        · exact h
        · exact h

/-- The keys and values of a text as they are written, in order. -/
def written (text : List Char) : List (List Char × List Char) :=
  (logicalLines none (Text.lines text)).map fun line =>
    ((splitKey line).1, valueOf (splitKey line).2)

/-- What a key or a value says. -/
def said (raw : List Char) : String :=
  String.ofList (trim (unescape raw))

/-- A map has what its keys and values say, and an escape in any of them is the character that its
four digits number. Where no character is numbered, not even by fewer digits or behind a plus sign,
all stays as it is but for the backslash. -/
theorem parse_numbered (text : String) :
    parse text = .ofList ((written text.toList).map fun e => (said e.1, said e.2)) ∧
      ∀ before after, Closed before →
        (∀ c, Names (after.take 4) c ∨ Suggests (after.take 4) c →
          unescape (before ++ '\\' :: 'u' :: after) =
            unescape before ++ c :: unescape (after.drop 4)) ∧
        ((∀ c, ¬ Names (after.take 4) c ∧ ¬ Suggests (after.take 4) c) →
          unescape (before ++ '\\' :: 'u' :: after) =
            unescape before ++ 'u' :: after.take 4 ++ unescape (after.drop 4)) := by
  constructor
  · unfold parse entries written
    rw [List.map_map]
    rfl
  · intro before after hbefore
    have hlength : (after.take 4).length ≤ 4 := by
      rw [List.length_take]
      omega
    rw [unescape_append hbefore, unescape_numbered]
    constructor
    · intro c hc
      rw [unicodeEscape, (namedChar?_eq_some_iff hlength).2 hc]
      rfl
    · intro hnone
      have hunnamed : namedChar? (after.take 4) = none := by
        rw [Option.eq_none_iff_forall_ne_some]
        intro c hc
        rcases (namedChar?_eq_some_iff hlength).1 hc with h | h
        · exact (hnone c).1 h
        · exact (hnone c).2 h
      rw [unicodeEscape, hunnamed, List.append_assoc]

/-- An escape right after an escaped backslash, and one that numbers a surrogate. -/
theorem parse_numbered_surrogate :
    (Closed "a\\\\".toList ∧ Names "0041".toList 'A' ∧
      unescape "a\\\\\\u0041z".toList = "a\\Az".toList) ∧
      (∀ c, ¬ Names "d800".toList c ∧ ¬ Suggests "d800".toList c) ∧
        unescape "\\ud800".toList = "ud800".toList := by
  have hclosed : Closed "a\\\\".toList := .plain (by decide) (.escaped (by decide) .nil)
  have hnames : Names "0041".toList 'A' := by
    constructor
    · rfl
    · exact Text.hexNumber?_eq_some_iff.1 (by decide)
  have hsurrogate : ∀ c, ¬ Names "d800".toList c ∧ ¬ Suggests "d800".toList c := by
    intro c
    have hnone : namedChar? "d800".toList ≠ some c := by
      have hnamed : namedChar? "d800".toList = none := by decide
      rw [hnamed]
      simp
    exact not_or.1 (mt (namedChar?_eq_some_iff (by decide)).2 hnone)
  refine ⟨⟨hclosed, hnames, ?_⟩, hsurrogate, ?_⟩
  · exact ((parse_numbered "").2 _ "0041z".toList hclosed).1 'A' (Or.inl hnames)
  · exact ((parse_numbered "").2 [] "d800".toList .nil).2 hsurrogate

/-- Neither a sign before three digits nor two digits alone number a character, and yet both are
replaced by one. -/
theorem parse_signed_escape :
    ((∀ c, ¬ Names "+041".toList c) ∧ parse "k=\\u+041" = .ofList [("k", "A")]) ∧
      (∀ c, ¬ Names "41".toList c) ∧ parse "k=\\u41" = .ofList [("k", "A")] := by
  refine ⟨⟨?_, by decide +kernel⟩, ?_, by decide +kernel⟩
  · rintro c ⟨-, hspells⟩
    exact Text.not_spells_plus hspells
  · rintro c ⟨hlength, -⟩
    exact absurd hlength (by decide)

end Properties

end Classpath
