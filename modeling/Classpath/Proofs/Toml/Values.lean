import Classpath.Proofs.Toml.Keys
import Mathlib.Data.List.Basic

namespace Classpath.Toml

/-! # Written values read back

The values of one line are truth values, integers of up to 128 bits, texts, and sequences of such
values. Each reads back before whatever may come after a value on its line, and what is read stops
exactly there. -/

open Text (hexDigit?)

/-! ## Digits -/

theorem hexDigit?_of_isDigit {c : Char} (h : c.isDigit = true) :
    hexDigit? c = some (c.toNat - '0'.toNat) := by
  have hrange : '0' ≤ c ∧ c ≤ '9' := by
    simp only [Char.isDigit, ge_iff_le, Bool.and_eq_true, decide_eq_true_eq] at h
    exact h
  rw [hexDigit?, if_pos hrange]

theorem toNat_of_isDigit {c : Char} (h : c.isDigit = true) : c.toNat - '0'.toNat < 10 := by
  have hupper : c ≤ '9' := by
    simp only [Char.isDigit, ge_iff_le, Bool.and_eq_true, decide_eq_true_eq] at h
    exact h.2
  have hnat : c.toNat ≤ '9'.toNat := hupper
  have hnine : '9'.toNat = 57 := rfl
  have hzero : '0'.toNat = 48 := rfl
  omega

theorem isDigitOf_ten {c : Char} (h : c.isDigit = true) : isDigitOf 10 c = true := by
  simpa [isDigitOf, hexDigit?_of_isDigit h] using toNat_of_isDigit h

theorem ungroup_digits {ds : List Char} (hne : ds ≠ []) (hds : ∀ c ∈ ds, c.isDigit = true) :
    ungroup 10 ds = some ds := by
  induction ds with
  | nil => exact absurd rfl hne
  | cons c ds ih =>
    have hc := isDigitOf_ten (hds c List.mem_cons_self)
    cases ds with
    | nil => simp [ungroup, hc]
    | cons d ds =>
      -- An underscore would be the only way to another branch.
      have hd : d ≠ '_' := by
        rintro rfl
        exact absurd (hds '_' (by simp)) (by decide)
      have htail := ih (by simp) fun x hx => hds x (List.mem_cons_of_mem c hx)
      rw [ungroup]
      · simp [hc, htail]
      · simp
      · intro cs heq
        exact hd (List.cons.inj heq).1

theorem numeral_digits {ds : List Char} (hds : ∀ c ∈ ds, c.isDigit = true) :
    numeral 10 ds = Nat.ofDigitChars 10 ds 0 := by
  rw [numeral, Nat.ofDigitChars_eq_foldl]
  refine List.foldl_ext _ _ _ fun n c hc => ?_
  rw [hexDigit?_of_isDigit (hds c hc)]
  rfl

theorem head?_toDigits {n : Nat} (hn : 0 < n) : (Nat.toDigits 10 n).head? ≠ some '0' := by
  induction n using Nat.strongRecOn with
  | ind n ih =>
    rw [Nat.toDigits_eq_if (by decide)]
    split
    next => simp; omega
    next hge =>
      have hdiv := ih (n / 10) (by omega) (by omega)
      rw [List.head?_append_of_ne_nil _ Nat.toDigits_ne_nil]
      exact hdiv

/-! ## Integers -/

theorem isDigit_of_mem_toDigits {n : Nat} : ∀ c ∈ Nat.toDigits 10 n, c.isDigit = true :=
  fun _ hc => Nat.isDigit_of_mem_toDigits (by decide) (by decide) hc

theorem wholeDigits_toDigits (n : Nat) :
    wholeDigits (Nat.toDigits 10 n) = some (Nat.toDigits 10 n) := by
  have hungroup := ungroup_digits Nat.toDigits_ne_nil (isDigit_of_mem_toDigits (n := n))
  rw [wholeDigits, hungroup]
  split
  next c cs heq =>
    by_cases hn : n = 0
    · subst hn
      simp at heq
    · have hhead := head?_toDigits (Nat.pos_of_ne_zero hn)
      rw [Option.some.inj heq] at hhead
      exact absurd rfl hhead
  next => rfl

theorem readUnsigned_toDigits (negative : Bool) (n : Nat) :
    readUnsigned negative (Nat.toDigits 10 n) =
      some (.ofInteger (if negative then -(n : Int) else n)) := by
  have hinf : Nat.toDigits 10 n ≠ ['i', 'n', 'f'] := by
    intro h
    exact absurd (isDigit_of_mem_toDigits (n := n) 'i' (by simp [h])) (by decide)
  have hnan : Nat.toDigits 10 n ≠ ['n', 'a', 'n'] := by
    intro h
    exact absurd (isDigit_of_mem_toDigits (n := n) 'n' (by simp [h])) (by decide)
  have hnumeral : numeral 10 (Nat.toDigits 10 n) = n := by
    rw [numeral_digits isDigit_of_mem_toDigits, Nat.ofDigitChars_ten_toDigits]
  rw [readUnsigned, if_neg hinf, if_neg hnan, readDecimal, wholeDigits_toDigits]
  dsimp only
  rw [hnumeral]

theorem readNumber_toDigits (n : Nat) :
    readNumber (Nat.toDigits 10 n) = some (.ofInteger n) := by
  have hall := isDigit_of_mem_toDigits (n := n)
  -- Neither a sign nor the letter of another base stands among the digits.
  have hplain : readNumber (Nat.toDigits 10 n) = readUnsigned false (Nat.toDigits 10 n) := by
    unfold readNumber
    split
    next heq => exact absurd (hall '+' (by simp [heq])) (by decide)
    next heq => exact absurd (hall '-' (by simp [heq])) (by decide)
    next heq => exact absurd (hall 'x' (by simp [heq])) (by decide)
    next heq => exact absurd (hall 'o' (by simp [heq])) (by decide)
    next heq => exact absurd (hall 'b' (by simp [heq])) (by decide)
    next => rfl
  rw [hplain, readUnsigned_toDigits]
  rfl

theorem toList_integerText (n : Int) :
    (Document.integerText n).toList =
      if n < 0 then '-' :: Nat.toDigits 10 n.natAbs else Nat.toDigits 10 n.natAbs := by
  unfold Document.integerText
  split
  next => simp [toString]
  next => simp [toString]

theorem readNumber_integerText (n : Int) :
    readNumber (Document.integerText n).toList = some (.ofInteger n) := by
  rw [toList_integerText]
  split
  next h =>
    have hvalue : -(n.natAbs : Int) = n := by omega
    rw [readNumber, readUnsigned_toDigits, if_pos rfl, hvalue]
  next h =>
    have hvalue : (n.natAbs : Int) = n := by omega
    rw [readNumber_toDigits, hvalue]

/-! ## Words -/

/-- What may come after a value: a delimiter that does not go on with words, or nothing. -/
def EndsValue (rest : List Char) : Prop :=
  rest.head?.all (fun c => isDelimiter c && !isSpace c) = true

theorem EndsValue.noQuote {rest : List Char} (h : EndsValue rest) : NoQuote rest := by
  constructor
  · intro hc
    rw [EndsValue, hc] at h
    exact absurd h (by decide)
  · intro hc
    rw [EndsValue, hc] at h
    exact absurd h (by decide)

/-- A word ends before a delimiter. -/
theorem splitWords_word {word rest : List Char}
    (hword : ∀ c ∈ word, isDelimiter c = false ∧ c ≠ '.') (hrest : EndsValue rest) :
    splitWords false (word ++ rest) = (word, rest) := by
  induction word with
  | nil =>
    cases rest with
    | nil => rfl
    | cons c rest =>
      simp only [EndsValue, List.head?_cons, Option.all_some, Bool.and_eq_true,
        Bool.not_eq_true'] at hrest
      simp [splitWords, hrest]
  | cons c word ih =>
    have hc := hword c List.mem_cons_self
    have htail := ih fun x hx => hword x (List.mem_cons_of_mem c hx)
    simp [splitWords, hc, htail]

/-- A value of words is read by what its words mean. -/
theorem readValue_word {word rest : List Char} (depth : Nat) (hne : word ≠ [])
    (hword : ∀ c ∈ word, isDelimiter c = false ∧ isQuote c = false ∧ c ≠ '.')
    (hrest : EndsValue rest) {d : Document} (hd : readWords word = some d) :
    readValue depth (word ++ rest) = some (.ok d, rest) := by
  have hsplit := splitWords_word (fun c hc => ⟨(hword c hc).1, (hword c hc).2.2⟩) hrest
  have hplain : readPlain (word ++ rest) = some (.ok d, rest) := by
    simp [readPlain, hsplit, hne, hd, orMalformed]
  cases word with
  | nil => exact absurd rfl hne
  | cons c word =>
    obtain ⟨hdelimiter, hquote, _⟩ := hword c List.mem_cons_self
    have hhead {x : Char} (hx : (isDelimiter x || isQuote x) = true) : c ≠ x := by
      rintro rfl
      simp [hdelimiter, hquote] at hx
    rw [List.cons_append] at hplain ⊢
    -- All other branches are for quotes and brackets at the start.
    unfold readValue
    split
    next heq => exact absurd (List.cons.inj heq).1 (hhead rfl)
    next heq => exact absurd (List.cons.inj heq).1 (hhead rfl)
    next heq => exact absurd (List.cons.inj heq).1 (hhead rfl)
    next heq => exact absurd (List.cons.inj heq).1 (hhead rfl)
    next heq => exact absurd (List.cons.inj heq).1 (hhead rfl)
    next heq => exact absurd (List.cons.inj heq).1 (hhead rfl)
    next => exact hplain

/-! ## Plain values -/

/-- Values that are written on one line, with sequences nested at most so deep. -/
def IsPlain : Nat → Document → Prop
  | _, .boolean _ => True
  | _, .integer n => Document.fitsDoubleWord n = true
  | _, .text _ => True
  | depth + 1, .sequence items => ∀ d ∈ items, IsPlain depth d
  | _, _ => False

/-- The characters of the words for truth values belong to words. -/
theorem isDelimiter_of_mem_booleanText {value : Bool} {c : Char}
    (h : c ∈ (Document.booleanText value).toList) :
    isDelimiter c = false ∧ isQuote c = false ∧ c ≠ '.' := by
  have hall : (Document.booleanText value).toList.all
      (fun c => !isDelimiter c && !isQuote c && c ≠ '.') = true := by
    cases value with
    | false => rfl
    | true => rfl
  simpa [and_assoc] using List.all_eq_true.1 hall c h

theorem readValue_boolean (depth : Nat) (value : Bool) {rest : List Char} (hrest : EndsValue rest) :
    readValue depth (writtenValue (.boolean value) ++ rest) = some (.ok (.boolean value), rest) := by
  have hword : ∀ c ∈ (Document.booleanText value).toList,
      isDelimiter c = false ∧ isQuote c = false ∧ c ≠ '.' :=
    fun _ hc => isDelimiter_of_mem_booleanText hc
  cases value with
  | false => exact readValue_word depth (by decide) hword hrest rfl
  | true => exact readValue_word depth (by decide) hword hrest rfl

theorem isDelimiter_of_isDigit {c : Char} (h : c.isDigit = true) :
    isDelimiter c = false ∧ isQuote c = false ∧ c ≠ '.' := by
  have hbare : isBareKeyChar c = true := by
    simp [isBareKeyChar, Char.isAlphanum, h]
  have hkey := isKeyChar_of_bare hbare
  simp only [isKeyChar, Bool.and_eq_true, Bool.not_eq_true', decide_eq_true_eq] at hkey
  refine ⟨hkey.1, ?_, hkey.2⟩
  have hdouble : c ≠ '"' := ne_of_test h rfl
  have hsingle : c ≠ '\'' := ne_of_test h rfl
  simp [isQuote, hdouble, hsingle]

theorem mem_integerText {n : Int} {c : Char} (hc : c ∈ (Document.integerText n).toList) :
    c = '-' ∨ c.isDigit = true := by
  rw [toList_integerText] at hc
  split at hc
  next =>
    rcases List.mem_cons.1 hc with rfl | hc
    · exact Or.inl rfl
    · exact Or.inr (isDigit_of_mem_toDigits c hc)
  next => exact Or.inr (isDigit_of_mem_toDigits c hc)

theorem isDelimiter_of_mem_integerText {n : Int} {c : Char}
    (hc : c ∈ (Document.integerText n).toList) :
    isDelimiter c = false ∧ isQuote c = false ∧ c ≠ '.' := by
  rcases mem_integerText hc with rfl | hdigit
  · decide
  · exact isDelimiter_of_isDigit hdigit

theorem integerText_ne_nil (n : Int) : (Document.integerText n).toList ≠ [] := by
  rw [toList_integerText]
  split
  next => simp
  next => exact Nat.toDigits_ne_nil

/-- No integer is a word with a letter in it. -/
theorem integerText_ne_word {n : Int} {word : List Char} {c : Char} (hc : c ∈ word)
    (hdigit : c.isDigit = false) (hminus : c ≠ '-') : (Document.integerText n).toList ≠ word := by
  rintro rfl
  rcases mem_integerText hc with rfl | h
  · exact hminus rfl
  · exact absurd h (by simp [hdigit])

theorem readValue_integer (depth : Nat) {n : Int} (hn : Document.fitsDoubleWord n = true)
    {rest : List Char} (hrest : EndsValue rest) :
    readValue depth (writtenValue (.integer n) ++ rest) = some (.ok (.integer n), rest) := by
  have htrue : (Document.integerText n).toList ≠ "true".toList :=
    integerText_ne_word (c := 't') (by decide) rfl (by decide)
  have hfalse : (Document.integerText n).toList ≠ "false".toList :=
    integerText_ne_word (c := 'f') (by decide) rfl (by decide)
  have hread : readWords (Document.integerText n).toList = some (.integer n) := by
    rw [readWords, if_neg htrue, if_neg hfalse, readNumber_integerText, Document.ofInteger,
      if_pos hn]
  exact readValue_word depth (integerText_ne_nil n)
    (fun _ hc => isDelimiter_of_mem_integerText hc) hrest hread

theorem writtenText_head (cs : List Char) :
    ∃ c t, isQuote c = true ∧ writtenText cs = c :: t := by
  rw [writtenText]
  cases formOf cs with
  | basic => exact ⟨'"', _, rfl, rfl⟩
  | literal => exact ⟨'\'', _, rfl, rfl⟩
  | multiBasic =>
    by_cases hn : '\n' ∈ cs
    · exact ⟨'"', _, rfl, by simp [writtenAs, between, hn]; rfl⟩
    · exact ⟨'"', _, rfl, by simp [writtenAs, between, hn]; rfl⟩
  | multiLiteral =>
    by_cases hn : '\n' ∈ cs
    · exact ⟨'\'', _, rfl, by simp [writtenAs, between, hn]; rfl⟩
    · exact ⟨'\'', _, rfl, by simp [writtenAs, between, hn]; rfl⟩

theorem readValue_quote (depth : Nat) {c : Char} (hc : isQuote c = true) (t : List Char) :
    readValue depth (c :: t) = some (readText (c :: t)) := by
  simp only [isQuote, Bool.or_eq_true, decide_eq_true_eq] at hc
  rcases hc with rfl | rfl
  · cases depth <;> rfl
  · cases depth <;> rfl

theorem readValue_text (depth : Nat) (s : String) {rest : List Char} (hrest : EndsValue rest) :
    readValue depth (writtenValue (.text s) ++ rest) = some (.ok (.text s), rest) := by
  have hread := readString_written s.toList hrest.noQuote
  have htext : readText (writtenText s.toList ++ rest) = (.ok (.text s), rest) := by
    rw [readText, readQuoted, hread, String.ofList_toList]
    rfl
  obtain ⟨c, t, hc, ht⟩ := writtenText_head s.toList
  rw [writtenValue]
  rw [ht, List.cons_append] at htext ⊢
  rw [readValue_quote depth hc, htext]

/-! ## Sequences -/

/-- The characters with which written values start. -/
def startsValue (c : Char) : Bool :=
  startsKey c || c = '['

theorem skipBlanks_cons {c : Char} (h : startsValue c = true) (t : List Char) :
    skipBlanks false (c :: t) = some (c :: t) := by
  have hnewline : c ≠ '\n' := ne_of_test h rfl
  have hreturn : c ≠ '\r' := ne_of_test h rfl
  have hspace : c ≠ ' ' := ne_of_test h rfl
  have htab : c ≠ '\t' := ne_of_test h rfl
  have hcomment : c ≠ '#' := ne_of_test h rfl
  simp [skipBlanks, isLineBreak, isSpace, hnewline, hreturn, hspace, htab, hcomment]

theorem skipBlanks_space (t : List Char) : skipBlanks false (' ' :: t) = skipBlanks false t := by
  simp [skipBlanks, isLineBreak, isSpace]

theorem skipBlanks_delimiter {c : Char} (hc : c = ']' ∨ c = ',') (t : List Char) :
    skipBlanks false (c :: t) = some (c :: t) := by
  rcases hc with rfl | rfl
  · simp [skipBlanks, isLineBreak, isSpace]
  · simp [skipBlanks, isLineBreak, isSpace]

theorem startsValue_of_isQuote {c : Char} (h : isQuote c = true) : startsValue c = true := by
  simp [startsValue, startsKey, h]

theorem startsValue_of_isDigit {c : Char} (h : c.isDigit = true) : startsValue c = true := by
  simp [startsValue, startsKey, isBareKeyChar, Char.isAlphanum, h]

theorem writtenValue_head {depth : Nat} {d : Document} (h : IsPlain depth d) :
    ∃ c t, startsValue c = true ∧ writtenValue d = c :: t := by
  cases d with
  | boolean value =>
    cases value with
    | false => exact ⟨'f', _, rfl, rfl⟩
    | true => exact ⟨'t', _, rfl, rfl⟩
  | integer n =>
    rw [writtenValue, toList_integerText]
    split
    next => exact ⟨'-', _, rfl, rfl⟩
    next =>
      cases hds : Nat.toDigits 10 n.natAbs with
      | nil => exact absurd hds Nat.toDigits_ne_nil
      | cons c ds =>
        have hc : c.isDigit = true := isDigit_of_mem_toDigits c (hds ▸ List.mem_cons_self)
        exact ⟨c, ds, startsValue_of_isDigit hc, rfl⟩
  | text s =>
    obtain ⟨c, t, hc, ht⟩ := writtenText_head s.toList
    exact ⟨c, t, startsValue_of_isQuote hc, ht⟩
  | sequence items => exact ⟨'[', _, rfl, rfl⟩
  | null => cases depth <;> exact h.elim
  | float x => cases depth <;> exact h.elim
  | unreadable => cases depth <;> exact h.elim
  | table entries => cases depth <;> exact h.elim

section Arrays

variable {readItem : ValueReader} {c : Char} {cs t after : List Char} {d : Document}

/-- An array ends with the item before the closing bracket. -/
theorem readArray_last (hc : startsValue c = true) (hstart : skipBlanks false cs = some (c :: t))
    (hread : readItem (c :: t) = some (.ok d, after)) {rest : List Char}
    (hafter : skipBlanks false after = some (']' :: rest)) :
    readArray readItem cs = some (.ok [d], rest) := by
  rw [readArray, hstart, Option.bind_some]
  split
  next heq =>
    have hbracket : c = ']' := (List.cons.inj heq).1
    subst hbracket
    exact absurd hc (by decide)
  next => simp [hread, hafter, Except.map]

/-- After an item and a comma an array goes on as one without the item. -/
theorem readArray_more (hc : startsValue c = true) (hstart : skipBlanks false cs = some (c :: t))
    (hread : readItem (c :: t) = some (.ok d, after)) {next : List Char}
    (hafter : skipBlanks false after = some (',' :: next)) (hnext : next.length < cs.length)
    {items : List Document} {rest : List Char}
    (hitems : readArray readItem next = some (.ok items, rest)) :
    readArray readItem cs = some (.ok (d :: items), rest) := by
  rw [readArray, hstart, Option.bind_some]
  split
  next heq =>
    have hbracket : c = ']' := (List.cons.inj heq).1
    subst hbracket
    exact absurd hc (by decide)
  next => simp [hread, hafter, hnext, hitems, Except.map, Except.bind]

/-- A reader that reads each of some written values reads them as the items of an array. -/
theorem readArray_written (items : List Document)
    (hitems : ∀ d ∈ items, (∃ c t, startsValue c = true ∧ writtenValue d = c :: t) ∧
      ∀ rest, EndsValue rest → readItem (writtenValue d ++ rest) = some (.ok d, rest))
    {spaces : List Char} (hspaces : ∀ t, skipBlanks false (spaces ++ t) = skipBlanks false t)
    (rest : List Char) :
    readArray readItem (spaces ++ (writtenItems items ++ ']' :: rest)) =
      some (.ok items, rest) := by
  -- Blanks may stand before the first item: none there, and one space before each later item.
  induction items generalizing spaces with
  | nil =>
    rw [readArray, hspaces, writtenItems, List.nil_append, skipBlanks_delimiter (Or.inl rfl)]
    rfl
  | cons d ds ih =>
    obtain ⟨⟨c, t, hc, ht⟩, hread⟩ := hitems d List.mem_cons_self
    cases ds with
    | nil =>
      have hd := hread (']' :: rest) rfl
      rw [writtenItems]
      rw [ht, List.cons_append] at hd ⊢
      exact readArray_last hc ((hspaces _).trans (skipBlanks_cons hc _)) hd
        (skipBlanks_delimiter (Or.inl rfl) rest)
    | cons e ds =>
      have hspace (t : List Char) : skipBlanks false ([' '] ++ t) = skipBlanks false t :=
        skipBlanks_space t
      have htail := ih (fun x hx => hitems x (List.mem_cons_of_mem d hx)) hspace
      have hd := hread (',' :: ' ' :: (writtenItems (e :: ds) ++ ']' :: rest)) rfl
      have hwritten : writtenItems (d :: e :: ds) ++ ']' :: rest =
          writtenValue d ++ ',' :: ' ' :: (writtenItems (e :: ds) ++ ']' :: rest) := by
        simp [writtenItems]
      rw [hwritten]
      rw [ht, List.cons_append] at hd ⊢
      refine readArray_more hc ((hspaces _).trans (skipBlanks_cons hc _)) hd
        (skipBlanks_delimiter (Or.inr rfl) _) ?_ htail
      simp
      omega

end Arrays

/-- Every plain value reads back. -/
theorem readValue_written {depth : Nat} {d : Document} (h : IsPlain depth d) {rest : List Char}
    (hrest : EndsValue rest) : readValue depth (writtenValue d ++ rest) = some (.ok d, rest) := by
  -- On the depth of nesting: a sequence needs its items to read back one level below.
  induction depth generalizing d rest with
  | zero =>
    cases d with
    | boolean value => exact readValue_boolean 0 value hrest
    | integer n => exact readValue_integer 0 h hrest
    | text s => exact readValue_text 0 s hrest
    | _ => exact h.elim
  | succ depth ih =>
    cases d with
    | boolean value => exact readValue_boolean _ value hrest
    | integer n => exact readValue_integer _ h hrest
    | text s => exact readValue_text _ s hrest
    | sequence items =>
      have hitems : ∀ d ∈ items, (∃ c t, startsValue c = true ∧ writtenValue d = c :: t) ∧
          ∀ rest, EndsValue rest →
            readValue depth (writtenValue d ++ rest) = some (.ok d, rest) :=
        fun d hd => ⟨writtenValue_head (h d hd), fun rest hrest => ih (h d hd) hrest⟩
      have harray : readArray (readValue depth) (writtenItems items ++ ']' :: rest) =
          some (.ok items, rest) := by
        have hnone (t : List Char) : skipBlanks false ([] ++ t) = skipBlanks false t := rfl
        exact readArray_written items hitems hnone rest
      rw [writtenValue, List.cons_append, List.cons_append, List.append_assoc,
        List.singleton_append, readValue, harray]
      rfl
    | _ => exact h.elim

end Classpath.Toml
