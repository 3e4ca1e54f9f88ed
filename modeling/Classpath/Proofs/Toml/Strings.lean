import Classpath.Toml.Quoting

namespace Classpath.Toml

/-! # Written strings read back

Whatever a text holds, the form that is chosen for it gives it back, and the reader stops right
after the closing quotes:

* a form with escapes reads back every text, and `formOf` takes a form without escapes only where no
  character needs one;
* between three quotes at most two of them stand in a row, so the first three in a row, with up to
  two that belong to the text before them, are the end. -/

open Text (hexDigit? scalar?)

/-- No quote of either kind comes next. -/
def NoQuote (rest : List Char) : Prop :=
  rest.head? ≠ some '"' ∧ rest.head? ≠ some '\''

/-! ## Escapes -/

/-- What the two readers between double quotes have in common: characters that stand for themselves
and the escapes that the writer makes. -/
structure ReadsEscapes (read : Place → List Char → Reading) : Prop where
  plain : ∀ c t, c ≠ '"' → c ≠ '\\' → isControl c = false →
    read .plain (c :: t) = push c (read .plain t)
  backslash : ∀ t, read .plain ('\\' :: t) = read .escape t
  short : ∀ c e t, isSpace c = false → isLineBreak c t = false → shortEscape? c = some e →
    read .escape (c :: t) = push e (read .plain t)
  letter : ∀ t, read .escape ('u' :: t) = read (.digits 3 0) t
  digit : ∀ left value c d t, hexDigit? c = some d →
    read (.digits (left + 1) value) (c :: t) = read (.digits left (16 * value + d)) t
  lastDigit : ∀ value c d e t, hexDigit? c = some d → scalar? (16 * value + d) = some e →
    read (.digits 0 value) (c :: t) = push e (read .plain t)

theorem readBasic_escapes : ReadsEscapes readBasic where
  plain c t hq hb hc := by simp [readBasic, hq, hb, hc]
  backslash t := by simp [readBasic]
  short c e t _ _ he := by simp [readBasic, he]
  letter t := by simp [readBasic, shortEscape?, afterLetter?, escapeWidth?]
  digit left value c d t hd := by simp [readBasic, hd]
  lastDigit value c d e t hd he := by simp [readBasic, hd, he]

theorem readMultiBasic_escapes : ReadsEscapes readMultiBasic where
  plain c t hq hb hc := by simp [readMultiBasic, hq, hb, hc]
  backslash t := by simp [readMultiBasic]
  short c e t hs hl he := by simp [readMultiBasic, hs, hl, he]
  letter t := by
    simp [readMultiBasic, shortEscape?, afterLetter?, escapeWidth?, isSpace, isLineBreak]
  digit left value c d t hd := by simp [readMultiBasic, hd]
  lastDigit value c d e t hd he := by simp [readMultiBasic, hd, he]

/-- Upper-case digits are worth as much as lower-case ones. -/
theorem hexDigit?_toUpper : ∀ n < 16, hexDigit? (Text.hexDigit n).toUpper = some n := by
  decide

theorem isControl_toNat {c : Char} (h : isControl c = true) : c.toNat < 128 := by
  simp only [isControl, Bool.or_eq_true, Bool.and_eq_true, decide_eq_true_eq] at h
  rcases h with ⟨h, _⟩ | rfl
  · omega
  · decide

section Escapes

variable {read : Place → List Char → Reading} (hread : ReadsEscapes read)

include hread

theorem ReadsEscapes.numeric {c : Char} (h : isControl c = true) (t : List Char) :
    read .plain (numericEscape c ++ t) = push c (read .plain t) := by
  -- A control is below 128, so its four digits are two zeros and the two of its byte.
  have hlt := isControl_toNat h
  have hbyte : (UInt8.ofNat c.toNat).toNat = c.toNat := by
    rw [UInt8.toNat_ofNat']
    omega
  have hhigh := hexDigit?_toUpper (c.toNat / 16) (by omega)
  have hlow := hexDigit?_toUpper (c.toNat % 16) (by omega)
  have hzero : hexDigit? '0' = some 0 := rfl
  have hvalue : 16 * (16 * (16 * (16 * 0 + 0) + 0) + c.toNat / 16) + c.toNat % 16 = c.toNat := by
    omega
  have hscalar : scalar? c.toNat = some c := Text.scalar?_eq_some_iff.2 rfl
  rw [← hvalue] at hscalar
  simp only [numericEscape, Text.hexByte, hbyte, List.map_cons, List.map_nil, List.cons_append,
    List.nil_append]
  rw [hread.backslash, hread.letter, hread.digit _ _ _ _ _ hzero, hread.digit _ _ _ _ _ hzero,
    hread.digit _ _ _ _ _ hhigh, hread.lastDigit _ _ _ _ _ hlow hscalar]

theorem ReadsEscapes.shortEscape {c e : Char} (he : shortEscape? c = some e) (t : List Char)
    (hs : isSpace c = false) (hl : isLineBreak c t = false) :
    read .plain ('\\' :: c :: t) = push e (read .plain t) := by
  rw [hread.backslash, hread.short c e t hs hl he]

/-- One character between double quotes, other than the quote and the line feed. -/
theorem ReadsEscapes.escaped {c : Char} (hq : c ≠ '"') (hn : c ≠ '\n') (t : List Char) :
    read .plain (Toml.escaped c ++ t) = push c (read .plain t) := by
  unfold Toml.escaped
  -- Five characters have a short escape; the other controls are written with digits.
  split
  next h =>
    subst h
    exact hread.shortEscape rfl t rfl rfl
  split
  next h =>
    subst h
    exact hread.shortEscape rfl t rfl rfl
  split
  next h =>
    subst h
    exact hread.shortEscape rfl t rfl rfl
  split
  next h =>
    subst h
    exact hread.shortEscape rfl t rfl rfl
  split
  next h =>
    subst h
    exact hread.shortEscape rfl t rfl rfl
  next hb =>
    split
    next h =>
      simp only [isRawControl, Bool.and_eq_true] at h
      exact hread.numeric h.1 t
    next h =>
      have hc : isControl c = false := by
        simpa [isRawControl, hn] using h
      exact hread.plain c t hq hb hc

end Escapes

/-! ## One line -/

theorem readBasic_escapedLine (c : Char) (t : List Char) :
    readBasic .plain (escapedLine c ++ t) = push c (readBasic .plain t) := by
  unfold escapedLine
  split
  next h =>
    subst h
    exact readBasic_escapes.shortEscape rfl t rfl rfl
  next hn =>
    split
    next h =>
      subst h
      exact readBasic_escapes.shortEscape rfl t rfl rfl
    next hq => exact readBasic_escapes.escaped hq hn t

theorem readBasic_written (cs rest : List Char) :
    readBasic .plain (cs.flatMap escapedLine ++ '"' :: rest) = some (cs, rest) := by
  induction cs with
  | nil => simp [readBasic]
  | cons c cs ih =>
    rw [List.flatMap_cons, List.append_assoc, readBasic_escapedLine, ih]
    rfl

/-- A text that holds neither controls nor single quotes stands for itself between them. -/
theorem readLiteral_written {cs : List Char} (hc : ∀ c ∈ cs, isControl c = false)
    (hq : '\'' ∉ cs) (rest : List Char) :
    readLiteral (cs ++ '\'' :: rest) = some (cs, rest) := by
  induction cs with
  | nil => simp [readLiteral]
  | cons c cs ih =>
    have hne : c ≠ '\'' := fun h => hq (h ▸ List.mem_cons_self)
    have hcontrol := hc c List.mem_cons_self
    have htail := ih (fun x hx => hc x (List.mem_cons_of_mem c hx))
      (fun h => hq (List.mem_cons_of_mem c h))
    simp [readLiteral, hne, hcontrol, htail, push]

/-! ## Several lines

A run of quotes is looked at from its first one. As far as it belongs to the text it is followed by
something else, or it is the last thing before the closing quotes. -/

theorem takeWhile_replicate (q : Char) (j : Nat) (t : List Char) :
    (List.replicate j q ++ t).takeWhile (· = q) = List.replicate j q ++ t.takeWhile (· = q) := by
  induction j with
  | zero => rfl
  | succ j ih => simp [List.replicate_succ, ih]

/-- Up to two quotes before something else do not close. -/
theorem closing?_open {q x : Char} {j : Nat} (hj : j ≤ 2) (hx : x ≠ q) (t : List Char) :
    closing? q (List.replicate j q ++ x :: t) = none := by
  simp only [closing?, takeWhile_replicate, List.takeWhile_cons, hx, decide_false,
    Bool.false_eq_true, if_false, List.append_nil, List.length_replicate]
  rw [if_neg (by omega)]

/-- Up to two quotes before the last three belong to the text. -/
theorem closing?_end {q : Char} {j : Nat} (hj : j ≤ 2) {rest : List Char}
    (hrest : rest.head? ≠ some q) :
    closing? q (List.replicate j q ++ q :: q :: q :: rest) = some (List.replicate j q, rest) := by
  have hrun : rest.takeWhile (· = q) = [] := by
    cases rest with
    | nil => rfl
    | cons x t =>
      have hx : x ≠ q := fun h => hrest (h ▸ rfl)
      simp [hx]
  have hcount : min 5 (j + 3) = j + 3 := by omega
  have hdrop : (List.replicate j q ++ q :: q :: q :: rest).drop (j + 3) = rest := by
    rw [List.drop_append]
    simp
  simp [closing?, hrun, hcount, hdrop]

/-- After `run` quotes a written body goes on with at most `2 - run` more, and then it has something
else, or it ends and is its own text. -/
def QuotesEnd (q : Char) (run : Nat) (text body : List Char) : Prop :=
  ∃ j, run + j ≤ 2 ∧
    ((text = List.replicate j q ∧ body = List.replicate j q) ∨
      ∃ x t, x ≠ q ∧ body = List.replicate j q ++ x :: t)

namespace QuotesEnd

variable {q : Char} {run : Nat} {text body : List Char}

theorem nil (hrun : run ≤ 2) : QuotesEnd q run [] [] :=
  ⟨0, by omega, Or.inl ⟨rfl, rfl⟩⟩

theorem of_ne {x : Char} (hrun : run ≤ 2) (hx : x ≠ q) (t : List Char) :
    QuotesEnd q run text (x :: t) :=
  ⟨0, by omega, Or.inr ⟨x, t, hx, rfl⟩⟩

theorem cons (h : QuotesEnd q (run + 1) text body) : QuotesEnd q run (q :: text) (q :: body) := by
  obtain ⟨j, hj, h⟩ := h
  refine ⟨j + 1, by omega, ?_⟩
  rcases h with ⟨rfl, rfl⟩ | ⟨x, t, hx, rfl⟩
  · exact Or.inl ⟨rfl, rfl⟩
  · exact Or.inr ⟨x, t, hx, rfl⟩

/-- The quotes at the start of a body close it only where they are all that is left of it. -/
theorem closing (h : QuotesEnd q run text body) {rest : List Char} (hrest : rest.head? ≠ some q) :
    closing? q (body ++ q :: q :: q :: rest) = none ∨
      closing? q (body ++ q :: q :: q :: rest) = some (text, rest) := by
  obtain ⟨j, hj, ⟨rfl, rfl⟩ | ⟨x, t, hx, rfl⟩⟩ := h
  · exact Or.inr (closing?_end (by omega) hrest)
  · left
    rw [List.append_assoc]
    exact closing?_open (by omega) hx _

end QuotesEnd

theorem escaped_head (c : Char) (hq : c ≠ '"') : ∃ x t, x ≠ '"' ∧ escaped c = x :: t := by
  unfold escaped numericEscape
  -- Every escape starts with a backslash.
  repeat' split
  all_goals first
    | exact ⟨'\\', _, by decide, rfl⟩
    | exact ⟨c, [], hq, rfl⟩

theorem escapedLines_quotesEnd {run : Nat} (hrun : run ≤ 2) (cs : List Char) :
    QuotesEnd '"' run cs (escapedLines run cs) := by
  induction cs generalizing run with
  | nil => exact .nil hrun
  | cons c cs ih =>
    rw [escapedLines]
    split
    next hc =>
      subst hc
      split
      next => exact .of_ne hrun (by decide) _
      next h => exact .cons (ih (by omega))
    next hc =>
      obtain ⟨x, t, hx, hescaped⟩ := escaped_head c hc
      rw [hescaped]
      exact .of_ne hrun hx _

theorem quotesEnd_of_hasTriple {q : Char} {run : Nat} (hrun : run ≤ 2) {cs : List Char}
    (h : hasTriple q run cs = false) : QuotesEnd q run cs cs := by
  induction cs generalizing run with
  | nil => exact .nil hrun
  | cons c cs ih =>
    rw [hasTriple] at h
    split at h
    next hc =>
      subst hc
      simp only [Bool.or_eq_false_iff, decide_eq_false_iff_not] at h
      exact .cons (ih (by omega) h.2)
    next hc => exact .of_ne hrun hc cs

theorem readMultiBasic_newline (t : List Char) :
    readMultiBasic .plain ('\n' :: t) = push '\n' (readMultiBasic .plain t) := by
  simp [readMultiBasic, isLineBreak]

/-- A quote at which a body does not close stands for itself. -/
theorem readMultiBasic_quote {run : Nat} {text body rest : List Char}
    (h : QuotesEnd '"' run text ('"' :: body)) (hrest : rest.head? ≠ some '"') {reading : Reading}
    (htext : push '"' reading = some (text, rest))
    (hbody : readMultiBasic .plain (body ++ '"' :: '"' :: '"' :: rest) = reading) :
    readMultiBasic .plain ('"' :: body ++ '"' :: '"' :: '"' :: rest) = some (text, rest) := by
  rcases h.closing hrest with hclosing | hclosing
  all_goals rw [List.cons_append] at hclosing ⊢
  all_goals simp [readMultiBasic, hclosing, hbody, htext]

theorem readMultiBasic_written {run : Nat} (hrun : run ≤ 2) (cs : List Char) {rest : List Char}
    (hrest : rest.head? ≠ some '"') :
    readMultiBasic .plain (escapedLines run cs ++ '"' :: '"' :: '"' :: rest) =
      some (cs, rest) := by
  induction cs generalizing run with
  | nil =>
    have hclosing := closing?_end (q := '"') (j := 0) (by omega) hrest
    simp only [List.replicate_zero, List.nil_append] at hclosing
    simp [escapedLines, readMultiBasic, hclosing]
  | cons c cs ih =>
    rw [escapedLines]
    split
    next hc =>
      subst hc
      split
      -- The third quote in a row is escaped, and the count starts again after it.
      next =>
        rw [List.cons_append, List.cons_append,
          readMultiBasic_escapes.shortEscape rfl _ rfl rfl, ih (by omega)]
        rfl
      next hrun' =>
        have hbound : run + 1 ≤ 2 := by omega
        have hend := (escapedLines_quotesEnd hbound cs).cons
        exact readMultiBasic_quote hend hrest rfl (ih hbound)
    next hc =>
      rw [List.append_assoc]
      by_cases hn : c = '\n'
      · subst hn
        have hraw : escaped '\n' = ['\n'] := rfl
        rw [hraw, List.singleton_append, readMultiBasic_newline, ih (by omega)]
        rfl
      · rw [readMultiBasic_escapes.escaped hc hn, ih (by omega)]
        rfl

theorem readMultiLiteral_written {run : Nat} (hrun : run ≤ 2) {cs : List Char}
    (hquotes : hasTriple '\'' run cs = false) (hc : ∀ c ∈ cs, isRawControl c = false)
    {rest : List Char} (hrest : rest.head? ≠ some '\'') :
    readMultiLiteral (cs ++ '\'' :: '\'' :: '\'' :: rest) = some (cs, rest) := by
  induction cs generalizing run with
  | nil =>
    have hclosing := closing?_end (q := '\'') (j := 0) (by omega) hrest
    simp only [List.replicate_zero, List.nil_append] at hclosing
    simp [readMultiLiteral, hclosing]
  | cons c cs ih =>
    have htail : ∀ x ∈ cs, isRawControl x = false := fun x hx => hc x (List.mem_cons_of_mem c hx)
    by_cases hq : c = '\''
    · subst hq
      have hend := quotesEnd_of_hasTriple hrun hquotes
      rw [hasTriple, if_pos rfl, Bool.or_eq_false_iff, decide_eq_false_iff_not] at hquotes
      have hbound : run + 1 ≤ 2 := by omega
      have hread := ih hbound hquotes.2 htail
      rcases hend.closing hrest with hclosing | hclosing
      all_goals rw [List.cons_append] at hclosing ⊢
      all_goals simp [readMultiLiteral, hclosing, hread, push]
    · rw [hasTriple, if_neg hq] at hquotes
      have hread := ih (Nat.zero_le 2) hquotes htail
      -- The only control in the body is the line feed, and that is a line break.
      have hcontrol : ¬ (isControl c = true ∧ ¬ isLineBreak c
          (cs ++ '\'' :: '\'' :: '\'' :: rest) = true) := by
        rintro ⟨hcontrol, hbreak⟩
        have hraw := hc c List.mem_cons_self
        simp only [isRawControl, hcontrol, Bool.true_and, decide_eq_false_iff_not,
          Decidable.not_not] at hraw
        subst hraw
        exact hbreak rfl
      rw [List.cons_append, readMultiLiteral, if_neg hq, if_neg hcontrol, hread]
      rfl

/-! ## All forms -/

theorem readString_double {t : List Char} (h : ∀ u, t ≠ '"' :: '"' :: u) :
    readString ('"' :: t) = asString (readBasic .plain t) := by
  unfold readString
  split
  next u heq => exact absurd (List.cons.inj heq).2 (h u)
  next heq => exact absurd (List.cons.inj heq).1 (by decide)
  next => rfl

theorem readString_single {t : List Char} (h : ∀ u, t ≠ '\'' :: '\'' :: u) :
    readString ('\'' :: t) = asString (readLiteral t) := by
  unfold readString
  split
  next heq => exact absurd (List.cons.inj heq).1 (by decide)
  next u heq => exact absurd (List.cons.inj heq).2 (h u)
  next => rfl

/-- A body that does not start with the quote is no second and third quote, and neither is an empty
one before something else. -/
theorem append_quote_ne {q : Char} {body rest : List Char} (hbody : body.head? ≠ some q)
    (hrest : rest.head? ≠ some q) (u : List Char) : body ++ q :: rest ≠ q :: q :: u := by
  intro heq
  cases body with
  | nil =>
    have hu : rest = q :: u := (List.cons.inj heq).2
    exact hrest (hu ▸ rfl)
  | cons x t =>
    have hx : x = q := (List.cons.inj heq).1
    exact hbody (hx ▸ rfl)

theorem escapedLine_head (c : Char) : ∃ x t, x ≠ '"' ∧ escapedLine c = x :: t := by
  unfold escapedLine
  split
  next => exact ⟨'\\', _, by decide, rfl⟩
  next =>
    split
    next => exact ⟨'\\', _, by decide, rfl⟩
    next hq => exact escaped_head c hq

theorem head?_flatMap_escapedLine (cs : List Char) :
    (cs.flatMap escapedLine).head? ≠ some '"' := by
  cases cs with
  | nil => simp
  | cons c cs =>
    obtain ⟨x, t, hx, hline⟩ := escapedLine_head c
    simpa [hline] using hx

theorem readString_basic (cs : List Char) {rest : List Char} (hrest : NoQuote rest) :
    readString (writtenAs cs .basic ++ rest) = some (String.ofList cs, rest) := by
  have htriple := append_quote_ne (head?_flatMap_escapedLine cs) hrest.1
  simp only [writtenAs, List.append_assoc, List.cons_append, List.nil_append]
  rw [readString_double htriple, readBasic_written]
  rfl

theorem readString_literal {cs : List Char} (hc : ∀ c ∈ cs, isControl c = false)
    (hq : '\'' ∉ cs) {rest : List Char} (hrest : NoQuote rest) :
    readString (writtenAs cs .literal ++ rest) = some (String.ofList cs, rest) := by
  have hhead : cs.head? ≠ some '\'' := fun h => hq (List.mem_of_mem_head? h)
  have htriple := append_quote_ne hhead hrest.2
  simp only [writtenAs, List.append_assoc, List.cons_append, List.nil_append]
  rw [readString_single htriple, readLiteral_written hc hq]
  rfl

theorem dropNewline_of_head {t : List Char} (hn : t.head? ≠ some '\n')
    (hr : t.head? ≠ some '\r') : dropNewline t = t := by
  unfold dropNewline
  split
  next => exact absurd rfl hn
  next => exact absurd rfl hr
  next => rfl

/-- A text without line breaks has a body that starts with none. -/
def StartsInLine (cs body : List Char) : Prop :=
  '\n' ∉ cs → body.head? ≠ some '\n' ∧ body.head? ≠ some '\r'

/-- The line break after the opening quotes is the only one that is dropped. -/
theorem dropNewline_between {q : Char} (hq : q ≠ '\n' ∧ q ≠ '\r') {cs body : List Char}
    (hbody : StartsInLine cs body) (rest : List Char) :
    ∃ t, between [q, q, q] cs body ++ rest = q :: q :: q :: t ∧
      dropNewline t = body ++ q :: q :: q :: rest := by
  by_cases hn : '\n' ∈ cs
  · refine ⟨'\n' :: (body ++ q :: q :: q :: rest), ?_, rfl⟩
    simp [between, hn]
  · refine ⟨body ++ q :: q :: q :: rest, ?_, ?_⟩
    · simp [between, hn]
    · have hhead := hbody hn
      -- Nothing was put after the opening quotes, so nothing must be dropped there.
      cases body with
      | nil => exact dropNewline_of_head (by simpa using hq.1) (by simpa using hq.2)
      | cons x body => exact dropNewline_of_head hhead.1 hhead.2

theorem startsInLine_escapedLines (cs : List Char) : StartsInLine cs (escapedLines 0 cs) := by
  intro hn
  cases cs with
  | nil => simp [escapedLines]
  | cons c cs =>
    have hc : c ≠ '\n' := fun h => hn (h ▸ List.mem_cons_self)
    rw [escapedLines]
    split
    next => simp
    next =>
      unfold escaped numericEscape
      repeat' split
      all_goals simp_all

theorem readString_multiBasic (cs : List Char) {rest : List Char} (hrest : NoQuote rest) :
    readString (writtenAs cs .multiBasic ++ rest) = some (String.ofList cs, rest) := by
  obtain ⟨t, ht, hdrop⟩ :=
    dropNewline_between (q := '"') (by decide) (startsInLine_escapedLines cs) rest
  rw [writtenAs, ht, readString, hdrop, readMultiBasic_written (by omega) cs hrest.1]
  rfl

theorem readString_multiLiteral {cs : List Char} (hc : ∀ c ∈ cs, isRawControl c = false)
    (hquotes : hasTriple '\'' 0 cs = false) {rest : List Char} (hrest : NoQuote rest) :
    readString (writtenAs cs .multiLiteral ++ rest) = some (String.ofList cs, rest) := by
  have hstart : StartsInLine cs cs := by
    intro hn
    refine ⟨fun h => hn (List.mem_of_mem_head? h), fun h => ?_⟩
    have hr := hc '\r' (List.mem_of_mem_head? h)
    exact absurd hr (by decide)
  obtain ⟨t, ht, hdrop⟩ := dropNewline_between (q := '\'') (by decide) hstart rest
  rw [writtenAs, ht, readString, hdrop, readMultiLiteral_written (by omega) hquotes hc hrest.2]
  rfl

theorem formOf_literal {cs : List Char} (h : formOf cs = .literal) :
    (∀ c ∈ cs, isControl c = false) ∧ '\'' ∉ cs := by
  unfold formOf at h
  dsimp only at h
  -- Only one branch makes this form, and its test says what is to be shown.
  split at h
  next => cases h
  split at h
  next hlit =>
    simp only [Bool.and_eq_true, Bool.not_eq_true', List.any_eq_false, List.contains_eq_mem,
      decide_eq_false_iff_not, Bool.not_eq_true] at hlit
    obtain ⟨⟨hraw, hquote⟩, hn⟩ := hlit
    refine ⟨fun c hc => ?_, hquote⟩
    have hne : c ≠ '\n' := fun h => hn (h ▸ hc)
    simpa [isRawControl, hne] using hraw c hc
  split at h
  next => cases h
  split at h
  next => cases h
  split at h
  all_goals cases h

theorem formOf_multiLiteral {cs : List Char} (h : formOf cs = .multiLiteral) :
    (∀ c ∈ cs, isRawControl c = false) ∧ hasTriple '\'' 0 cs = false := by
  unfold formOf at h
  dsimp only at h
  split at h
  next => cases h
  split at h
  next => cases h
  split at h
  next => cases h
  split at h
  next hmulti =>
    simp only [Bool.and_eq_true, Bool.not_eq_true', List.any_eq_false, Bool.not_eq_true] at hmulti
    exact hmulti
  next =>
    split at h
    all_goals cases h

/-- Every text reads back in the form that is chosen for it. -/
theorem readString_written (cs : List Char) {rest : List Char} (hrest : NoQuote rest) :
    readString (writtenText cs ++ rest) = some (String.ofList cs, rest) := by
  rw [writtenText]
  cases h : formOf cs with
  | basic => exact readString_basic cs hrest
  | literal => exact readString_literal (formOf_literal h).1 (formOf_literal h).2 hrest
  | multiBasic => exact readString_multiBasic cs hrest
  | multiLiteral =>
    exact readString_multiLiteral (formOf_multiLiteral h).1 (formOf_multiLiteral h).2 hrest

end Classpath.Toml
