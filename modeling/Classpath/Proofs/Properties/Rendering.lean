import Classpath.Proofs.Collections
import Classpath.Proofs.Properties.Lines

namespace Classpath.Properties

/-! # Property texts of a map

The same entries can be written in many ways: with either sign or only blanks between key and value,
with blanks around them, with either line ending, and with blank lines and comments anywhere. What
is read depends on none of this.

1. **Rendering**: which texts say a list of entries.
2. **Escapes**: an escaped text has no separator and ends no line too early, and unescaping gives
   the text back.
3. **Entry lines**: the key and the value are found again.
4. **Idle lines**: they are skipped, with a carriage return at the end or without.
5. **Texts**: a text says its list of entries, the last of each key. -/

open Text (isBlank trimStart trim Trimmed lines chomp)

/-! ## Rendering -/

/-- How one character of a key or a value is written. -/
def escapeOf (c : Char) : List Char :=
  if c = '\t' then ['\\', 't']
  else if c = '\n' then ['\\', 'n']
  else if c = '\r' then ['\\', 'r']
  else if c = '\x0c' then ['\\', 'f']
  else if c ∈ ['\\', '=', ':', '#', '!'] ∨ isBlank c = true then ['\\', c]
  else [c]

def escape (cs : List Char) : List Char :=
  cs.flatMap escapeOf

/-- Spaces and tabs. -/
def IsGap (cs : List Char) : Prop :=
  ∀ c ∈ cs, c = ' ' ∨ c = '\t'

instance (cs : List Char) : Decidable (IsGap cs) :=
  List.decidableBAll (fun c => c = ' ' ∨ c = '\t') cs

/-- What may stand between a key and its value: a sign with gaps around it, or after a key that is
not empty a gap alone. -/
inductive Separates (key : List Char) : List Char → Prop where
  | sign {before after : List Char} {c : Char} (hbefore : IsGap before) (hc : c = '=' ∨ c = ':')
      (hafter : IsGap after) : Separates key (before ++ c :: after)
  | gap {cs : List Char} (hkey : key ≠ []) (hne : cs ≠ []) (hgap : IsGap cs) : Separates key cs

/-- A line that is one entry. -/
inductive EntryLine (key value : List Char) : List Char → Prop where
  | intro {lead separator trail : List Char} (hlead : IsGap lead)
      (hseparator : Separates key separator) (htrail : IsGap trail) :
      EntryLine key value (lead ++ (escape key ++ (separator ++ (escape value ++ trail))))

/-- A blank line or a comment. -/
inductive IdleLine : List Char → Prop where
  | blank {cs : List Char} (hblank : ∀ c ∈ cs, isBlank c = true) (hline : '\n' ∉ cs) : IdleLine cs
  | comment {lead text : List Char} {c : Char} (hblank : ∀ c ∈ lead, isBlank c = true)
      (hlead : '\n' ∉ lead) (hc : c = '#' ∨ c = '!') (htext : '\n' ∉ text) :
      IdleLine (lead ++ c :: text)

/-- What ends a line. -/
inductive Ending : List Char → Prop where
  | newline : Ending ['\n']
  | returnNewline : Ending ['\r', '\n']

/-- The texts that say a list of entries. -/
inductive Renders : List (String × String) → List Char → Prop where
  | nil : Renders [] []
  | last {line : List Char} (hline : IdleLine line) : Renders [] line
  | idle {pairs : List (String × String)} {line ending rest : List Char} (hline : IdleLine line)
      (hending : Ending ending) (hrest : Renders pairs rest) :
      Renders pairs (line ++ ending ++ rest)
  | entry {pairs : List (String × String)} {key value : String} {line ending rest : List Char}
      (hkey : Trimmed key.toList) (hvalue : Trimmed value.toList)
      (hline : EntryLine key.toList value.toList line) (hending : Ending ending)
      (hrest : Renders pairs rest) : Renders ((key, value) :: pairs) (line ++ ending ++ rest)

/-! ## Escapes -/

/-- A character is written after a backslash, where nothing else can be read out of it, or stands
for itself and means nothing else. -/
theorem escapeOf_cases (c : Char) :
    (∃ d, escapeOf c = ['\\', d] ∧ plainEscape d = c ∧ d ≠ 'u' ∧ d ≠ '\n' ∧ d ≠ '\r') ∨
      escapeOf c = [c] ∧ c ∉ ['\\', '=', ':', '#', '!'] ∧ isBlank c = false := by
  unfold escapeOf
  by_cases htab : c = '\t'
  · left
    subst htab
    exact ⟨'t', rfl, rfl, by decide, by decide, by decide⟩
  by_cases hnewline : c = '\n'
  · left
    subst hnewline
    exact ⟨'n', rfl, rfl, by decide, by decide, by decide⟩
  by_cases hreturn : c = '\r'
  · left
    subst hreturn
    exact ⟨'r', rfl, rfl, by decide, by decide, by decide⟩
  by_cases hfeed : c = '\x0c'
  · left
    subst hfeed
    exact ⟨'f', rfl, rfl, by decide, by decide, by decide⟩
  rw [if_neg htab, if_neg hnewline, if_neg hreturn, if_neg hfeed]
  by_cases hspecial : c ∈ ['\\', '=', ':', '#', '!'] ∨ isBlank c = true
  · left
    -- no letter is among the characters that get a backslash for what they are
    have hletter : c ≠ 't' ∧ c ≠ 'n' ∧ c ≠ 'r' ∧ c ≠ 'f' ∧ c ≠ 'u' := by
      refine ⟨?_, ?_, ?_, ?_, ?_⟩ <;> (rintro rfl; revert hspecial; decide)
    rw [if_pos hspecial]
    refine ⟨c, rfl, ?_, hletter.2.2.2.2, hnewline, hreturn⟩
    simp [plainEscape, hletter]
  · right
    rw [if_neg hspecial]
    rw [not_or, Bool.not_eq_true] at hspecial
    exact ⟨rfl, hspecial⟩

theorem escape_nil : escape [] = [] :=
  rfl

theorem escape_cons (c : Char) (cs : List Char) : escape (c :: cs) = escapeOf c ++ escape cs :=
  rfl

/-- An escaped text starts with a backslash, or with a character that means nothing else. -/
theorem exists_escape_eq_cons {cs : List Char} (h : cs ≠ []) :
    ∃ c rest, escape cs = c :: rest ∧ c ∉ ['=', ':', '#', '!'] ∧ isBlank c = false := by
  cases cs with
  | nil => exact absurd rfl h
  | cons d cs =>
    rw [escape_cons]
    rcases escapeOf_cases d with ⟨e, he, _⟩ | ⟨hd, hplain, hblank⟩
    · refine ⟨'\\', e :: escape cs, by rw [he]; rfl, ?_⟩
      decide
    · refine ⟨d, escape cs, by rw [hd]; rfl, fun hc => ?_, hblank⟩
      exact hplain (List.mem_cons_of_mem _ hc)

theorem continues_append_escape {before : List Char} (hbefore : continues before = false)
    (cs : List Char) : continues (before ++ escape cs) = false := by
  induction cs generalizing before with
  | nil =>
    rw [escape, List.flatMap_nil, List.append_nil]
    exact hbefore
  | cons c cs ih =>
    rw [escape_cons, ← List.append_assoc]
    refine ih ?_
    rcases escapeOf_cases c with ⟨d, hd, _⟩ | ⟨hc, hplain, _⟩
    · -- the backslash and the character after it, which may be a backslash too
      have hsplit : before ++ ['\\', d] = before ++ ['\\'] ++ [d] := by simp
      rw [hd, hsplit, continues_snoc, continues_snoc, hbefore]
      simp
    · have hne : c ≠ '\\' := fun hne => hplain (by simp [hne])
      rw [hc, continues_snoc]
      simp [hne]

/-- Up to the first separator after it, an escaped key has none. -/
theorem splitKey_escape (cs : List Char) {c : Char} (hc : isSeparator c = true) (hne : c ≠ '\\')
    (rest : List Char) : splitKey (escape cs ++ c :: rest) = (escape cs, c :: rest) := by
  induction cs with
  | nil =>
    rw [escape_nil, List.nil_append, splitKey, if_pos hc]
    intro _ _ h
    exact absurd h hne
  | cons d cs ih =>
    rw [escape_cons, List.append_assoc]
    rcases escapeOf_cases d with ⟨e, he, _⟩ | ⟨hd, hplain, hblank⟩
    · rw [he]
      simp [splitKey, ih]
    · have hseparator : isSeparator d = false := by
        simp only [List.mem_cons, not_or] at hplain
        simp [isSeparator, hplain, hblank]
      have hbackslash : d ≠ '\\' := fun h => hplain (by simp [h])
      rw [hd, List.singleton_append, splitKey, hseparator]
      · simp [ih]
      · intro _ _ h
        exact absurd h hbackslash

theorem unescape_plain {cs : List Char} (h : '\\' ∉ cs) (rest : List Char) :
    unescape (cs ++ rest) = cs ++ unescape rest := by
  induction cs with
  | nil => rfl
  | cons c cs ih =>
    have hc : c ≠ '\\' := fun hc => h (by simp [hc])
    have hcs := ih fun hcs => h (List.mem_cons_of_mem c hcs)
    rw [List.cons_append, unescape, hcs, List.cons_append]
    all_goals simp [hc]

/-- Escaping is undone, whatever comes after it. -/
theorem unescape_escape (cs rest : List Char) :
    unescape (escape cs ++ rest) = cs ++ unescape rest := by
  induction cs with
  | nil => rfl
  | cons c cs ih =>
    rw [escape_cons, List.append_assoc]
    rcases escapeOf_cases c with ⟨d, hd, hplain, hletter, _⟩ | ⟨hc, hplain, _⟩
    · rw [hd, List.cons_append, List.cons_append, List.nil_append, unescape, hplain, ih,
        List.cons_append]
      all_goals simp [hletter]
    · have hne : c ≠ '\\' := fun hne => hplain (by simp [hne])
      have hbackslash : '\\' ∉ [c] := by simpa [eq_comm] using hne
      rw [hc, unescape_plain hbackslash, ih]
      rfl

theorem mem_escape {cs : List Char} {c : Char} (h : c ∈ escape cs) : c ≠ '\n' ∧ c ≠ '\r' := by
  obtain ⟨d, _, hd⟩ := List.mem_flatMap.1 h
  rcases escapeOf_cases d with ⟨e, he, _, _, hnewline, hreturn⟩ | ⟨hplain, _, hblank⟩
  · rw [he] at hd
    simp only [List.mem_cons, List.not_mem_nil, or_false] at hd
    rcases hd with rfl | rfl
    · decide
    · exact ⟨hnewline, hreturn⟩
  · -- both line breaks are blank, and no blank stands for itself
    rw [hplain, List.mem_singleton] at hd
    subst hd
    constructor
    · rintro rfl
      exact absurd hblank (by decide)
    · rintro rfl
      exact absurd hblank (by decide)

/-! ## Entry lines -/

theorem isGap_nil : IsGap [] := by
  intro c hc
  cases hc

theorem isBlank_sign {c : Char} (h : c = '=' ∨ c = ':') : isBlank c = false := by
  rcases h with rfl | rfl
  · decide
  · decide

theorem IsGap.blank {cs : List Char} (h : IsGap cs) : ∀ c ∈ cs, isBlank c = true := by
  intro c hc
  rcases h c hc with rfl | rfl
  · decide
  · decide

theorem IsGap.not_mem {cs : List Char} (h : IsGap cs) {c : Char} (hspace : c ≠ ' ')
    (htab : c ≠ '\t') : c ∉ cs := by
  intro hc
  rcases h c hc with heq | heq
  · exact hspace heq
  · exact htab heq

section Separators

variable {key separator : List Char} (h : Separates key separator)
include h

theorem Separates.head : ∃ c rest, separator = c :: rest ∧ isSeparator c = true ∧ c ≠ '\\' := by
  have hgap {c : Char} (hc : c = ' ' ∨ c = '\t') : isSeparator c = true ∧ c ≠ '\\' := by
    rcases hc with rfl | rfl
    · decide
    · decide
  cases h with
  | @sign before after c hbefore hc hafter =>
    cases before with
    | nil =>
      refine ⟨c, after, rfl, ?_⟩
      rcases hc with rfl | rfl
      · decide
      · decide
    | cons d before => exact ⟨d, _, rfl, hgap (hbefore d List.mem_cons_self)⟩
  | gap hkey hne hall =>
    cases separator with
    | nil => exact absurd rfl hne
    | cons d separator => exact ⟨d, _, rfl, hgap (hall d List.mem_cons_self)⟩

theorem Separates.not_mem {c : Char} (hc : c ∉ [' ', '\t', '=', ':']) : c ∉ separator := by
  simp only [List.mem_cons, List.not_mem_nil, or_false, not_or] at hc
  obtain ⟨hspace, htab, hequals, hcolon⟩ := hc
  cases h with
  | sign hbefore hsign hafter =>
    rw [List.mem_append, List.mem_cons, not_or, not_or]
    refine ⟨hbefore.not_mem hspace htab, ?_, hafter.not_mem hspace htab⟩
    rcases hsign with rfl | rfl
    · exact hequals
    · exact hcolon
  | gap hkey hne hgap => exact hgap.not_mem hspace htab

/-- The value is found again after a separator. -/
theorem Separates.trim_valueOf {value trail : List Char} (hvalue : Trimmed value)
    (htrail : IsGap trail) :
    trim (unescape (valueOf (separator ++ (escape value ++ trail)))) = value := by
  have hraw {after : List Char} (hafter : IsGap after) :
      trim (unescape (after ++ (escape value ++ trail))) = value := by
    have hend := unescape_plain (htrail.not_mem (by decide) (by decide)) []
    rw [List.append_nil, unescape, List.append_nil] at hend
    rw [unescape_plain (hafter.not_mem (by decide) (by decide)), unescape_escape, hend,
      ← List.append_assoc]
    exact Text.trim_between hvalue hafter.blank htrail.blank
  cases h with
  | @sign before after c hbefore hc hafter =>
    have hstart : trimStart (before ++ c :: after ++ (escape value ++ trail)) =
        c :: (after ++ (escape value ++ trail)) := by
      rw [List.append_assoc, Text.trimStart_append_blanks hbefore.blank, List.cons_append]
      exact Text.trimStart_cons (isBlank_sign hc) _
    unfold valueOf
    rw [hstart]
    rcases hc with rfl | rfl
    · exact hraw hafter
    · exact hraw hafter
  | gap hkey hne hgap =>
    unfold valueOf
    rw [Text.trimStart_append_blanks hgap.blank]
    cases value with
    | nil =>
      rw [escape_nil, List.nil_append, Text.trimStart_blanks htrail.blank]
      rfl
    | cons c cs =>
      -- the value starts at once, and not with a sign
      obtain ⟨d, ds, hd, hsign, hblank⟩ := exists_escape_eq_cons (List.cons_ne_nil c cs)
      have hstart : trimStart (escape (c :: cs) ++ trail) = d :: (ds ++ trail) := by
        rw [hd]
        exact Text.trimStart_cons hblank _
      have hvalue := hraw isGap_nil
      rw [List.nil_append, hd, List.cons_append] at hvalue
      rw [hstart]
      split
      next heq =>
        cases heq
        exact absurd hsign (by decide)
      next heq =>
        cases heq
        exact absurd hsign (by decide)
      next => exact hvalue

/-- The entry is found again in what an entry line starts with. -/
theorem Separates.entryOf_line {value trail : List Char} (hkey : Trimmed key)
    (hvalue : Trimmed value) (htrail : IsGap trail) :
    entryOf (escape key ++ (separator ++ (escape value ++ trail))) =
      (String.ofList key, String.ofList value) := by
  have hread := h.trim_valueOf hvalue htrail
  obtain ⟨c, rest, rfl, hseparator, hne⟩ := h.head
  have hsplit := splitKey_escape key hseparator hne (rest ++ (escape value ++ trail))
  rw [List.cons_append] at hread ⊢
  have hunescape : unescape (escape key) = key := by
    have hkeyed := unescape_escape key []
    rw [List.append_nil, unescape, List.append_nil] at hkeyed
    exact hkeyed
  have htrim : trim key = key := by
    unfold trim
    rw [Text.trimStart_of_head hkey.1, Text.trimEnd_of_last hkey.2]
  unfold entryOf
  simp only [hsplit, hunescape, htrim, hread]

/-- A line with an entry needs no other line. -/
theorem Separates.continues_line {value trail : List Char} (htrail : IsGap trail) :
    continues (escape key ++ (separator ++ (escape value ++ trail))) = false := by
  have hkeyed : continues ([] ++ escape key) = false := continues_append_escape rfl key
  have hseparated := continues_append_plain hkeyed (h.not_mem (by decide))
  have hvalued := continues_append_escape hseparated value
  have hwhole := continues_append_plain hvalued (htrail.not_mem (by decide) (by decide))
  rw [List.append_assoc, List.append_assoc] at hwhole
  exact hwhole

end Separators

section EntryLines

variable {key value line : List Char} (h : EntryLine key value line)
include h

/-- Without its leading blanks an entry line is the key, a separator, the value and a gap. Where the
key is empty, the gap before the sign counts as leading. -/
theorem EntryLine.start : ∃ separator trail, Separates key separator ∧ IsGap trail ∧
    trimStart line = escape key ++ (separator ++ (escape value ++ trail)) := by
  obtain @⟨lead, separator, trail, hlead, hseparator, htrail⟩ := h
  rw [Text.trimStart_append_blanks hlead.blank]
  cases key with
  | nil =>
    cases hseparator with
    | @sign before after c hbefore hc hafter =>
      refine ⟨c :: after, trail, Separates.sign isGap_nil hc hafter, htrail, ?_⟩
      rw [escape_nil, List.nil_append, List.append_assoc,
        Text.trimStart_append_blanks hbefore.blank]
      exact Text.trimStart_cons (isBlank_sign hc) _
    | gap hkey _ _ => exact absurd rfl hkey
  | cons c cs =>
    obtain ⟨e, es, he, _, hblank⟩ := exists_escape_eq_cons (List.cons_ne_nil c cs)
    refine ⟨separator, trail, hseparator, htrail, ?_⟩
    rw [he]
    exact Text.trimStart_cons hblank _

/-- An entry line is not taken for a comment. -/
theorem EntryLine.isSkipped_start : isSkipped (trimStart line) = false := by
  obtain ⟨separator, trail, hseparator, _, hstart⟩ := h.start
  rw [hstart]
  cases key with
  | nil =>
    cases hseparator with
    | @sign before after c hbefore hc hafter =>
      rw [escape_nil, List.nil_append]
      cases before with
      | nil => rcases hc with rfl | rfl <;> rfl
      | cons d before => rcases hbefore d List.mem_cons_self with rfl | rfl <;> rfl
    | gap hkey _ _ => exact absurd rfl hkey
  | cons c cs =>
    obtain ⟨e, es, he, hplain, _⟩ := exists_escape_eq_cons (List.cons_ne_nil c cs)
    simp only [List.mem_cons, List.not_mem_nil, or_false, not_or] at hplain
    rw [he, List.cons_append]
    simp [isSkipped, hplain]

theorem EntryLine.not_mem {c : Char} (hc : c = '\n' ∨ c = '\r') : c ∉ line := by
  obtain ⟨hlead, hseparator, htrail⟩ := h
  have hspace : c ≠ ' ' := by rcases hc with rfl | rfl <;> decide
  have htab : c ≠ '\t' := by rcases hc with rfl | rfl <;> decide
  have hescaped (cs : List Char) : c ∉ escape cs := by
    intro hmem
    rcases hc with rfl | rfl
    · exact (mem_escape hmem).1 rfl
    · exact (mem_escape hmem).2 rfl
  have hsign : c ∉ [' ', '\t', '=', ':'] := by rcases hc with rfl | rfl <;> decide
  simp only [List.mem_append, not_or]
  exact ⟨hlead.not_mem hspace htab, hescaped key, hseparator.not_mem hsign, hescaped value,
    htrail.not_mem hspace htab⟩

end EntryLines

/-! ## Idle lines -/

theorem IdleLine.isSkipped_start {line : List Char} (h : IdleLine line) :
    isSkipped (trimStart line) = true := by
  cases h with
  | blank hblank _ =>
    rw [Text.trimStart_blanks hblank]
    rfl
  | @comment lead text c hblank _ hc _ =>
    have hstart : isBlank c = false := by rcases hc with rfl | rfl <;> decide
    rw [Text.trimStart_append_blanks hblank, Text.trimStart_cons hstart]
    rcases hc with rfl | rfl <;> rfl

theorem IdleLine.not_mem {line : List Char} (h : IdleLine line) : '\n' ∉ line := by
  cases h with
  | blank _ hline => exact hline
  | @comment lead text c _ hlead hc htext =>
    rw [List.mem_append, List.mem_cons, not_or, not_or]
    refine ⟨hlead, ?_, htext⟩
    rcases hc with rfl | rfl <;> decide

/-- A carriage return at its end is not what makes a line idle. -/
theorem IdleLine.chomped {line : List Char} (h : IdleLine line) : IdleLine (chomp line) := by
  cases h with
  | blank hblank hline =>
    refine IdleLine.blank (fun c hc => hblank c (Text.mem_of_mem_chomp hc)) fun hc => ?_
    exact hline (Text.mem_of_mem_chomp hc)
  | @comment lead text c hblank hlead hc htext =>
    have hne : c ≠ '\r' := by rcases hc with rfl | rfl <;> decide
    rw [Text.chomp_append_cons lead hne]
    exact IdleLine.comment hblank hlead hc fun hmem => htext (Text.mem_of_mem_chomp hmem)

/-! ## Texts -/

/-- Either ending ends a line; with a line feed alone, a carriage return before it goes too. -/
theorem Ending.lines_append {ending : List Char} (h : Ending ending) {line : List Char}
    (hline : '\n' ∉ line) (rest : List Char) :
    ∃ cut, (cut = line ∨ cut = chomp line) ∧
      lines (line ++ ending ++ rest) = cut :: lines rest := by
  cases h with
  | newline =>
    refine ⟨chomp line, Or.inr rfl, ?_⟩
    rw [List.append_assoc]
    exact Text.lines_append_newline hline rest
  | returnNewline =>
    have hreturn : '\n' ∉ line ++ ['\r'] := by simpa using hline
    have hcut := Text.lines_append_newline hreturn rest
    rw [Text.chomp_append_return] at hcut
    refine ⟨line, Or.inl rfl, ?_⟩
    rw [← hcut]
    simp

theorem logicalLines_cons_idle {line : List Char} (h : isSkipped (trimStart line) = true)
    (rest : List (List Char)) : logicalLines none (line :: rest) = logicalLines none rest := by
  rw [logicalLines]
  simp [h]

theorem logicalLines_cons_whole {line : List Char} (hskipped : isSkipped (trimStart line) = false)
    (hcontinues : continues (trimStart line) = false) (rest : List (List Char)) :
    logicalLines none (line :: rest) = trimStart line :: logicalLines none rest := by
  rw [logicalLines]
  simp [hskipped, hcontinues]

/-- One idle line leaves the entries of the rest. -/
theorem IdleLine.entries_append {line ending : List Char} (hline : IdleLine line)
    (hending : Ending ending) (rest : List Char) :
    entries (line ++ ending ++ rest) = entries rest := by
  obtain ⟨cut, hcut, hlines⟩ := hending.lines_append hline.not_mem rest
  have hskipped : isSkipped (trimStart cut) = true := by
    rcases hcut with rfl | rfl
    · exact hline.isSkipped_start
    · exact hline.chomped.isSkipped_start
  unfold entries
  rw [hlines, logicalLines_cons_idle hskipped]

/-- One entry line puts its entry before those of the rest. -/
theorem EntryLine.entries_append {key value line ending : List Char} (hkey : Trimmed key)
    (hvalue : Trimmed value) (hline : EntryLine key value line) (hending : Ending ending)
    (rest : List Char) :
    entries (line ++ ending ++ rest) =
      (String.ofList key, String.ofList value) :: entries rest := by
  obtain ⟨cut, hcut, hlines⟩ := hending.lines_append (hline.not_mem (Or.inl rfl)) rest
  have hsame : cut = line := by
    rcases hcut with rfl | rfl
    · rfl
    · exact Text.chomp_eq_self (hline.not_mem (Or.inr rfl))
  subst hsame
  obtain ⟨separator, trail, hseparator, htrail, hstart⟩ := hline.start
  have hcontinues : continues (trimStart cut) = false := by
    rw [hstart]
    exact hseparator.continues_line htrail
  have hentry : entryOf (trimStart cut) = (String.ofList key, String.ofList value) := by
    rw [hstart]
    exact hseparator.entryOf_line hkey hvalue htrail
  unfold entries
  rw [hlines, logicalLines_cons_whole hline.isSkipped_start hcontinues, List.map_cons, hentry]

/-- Whatever the rendering, the entries are read in order. -/
theorem Renders.entries_eq {pairs : List (String × String)} {text : List Char}
    (h : Renders pairs text) : entries text = pairs := by
  induction h with
  | nil => rfl
  | @last line hline =>
    cases line with
    | nil => rfl
    | cons c cs =>
      have hlines := Text.lines_of_not_mem hline.not_mem (List.cons_ne_nil c cs)
      unfold entries
      rw [hlines, logicalLines_cons_idle hline.isSkipped_start]
      rfl
  | idle hline hending _ ih => rw [hline.entries_append hending, ih]
  | entry hkey hvalue hline hending _ ih =>
    rw [hline.entries_append hkey hvalue hending, ih, String.ofList_toList, String.ofList_toList]

/-- Every list of trimmed pairs can be written. -/
theorem exists_renders (pairs : List (String × String))
    (h : ∀ e ∈ pairs, Trimmed e.1.toList ∧ Trimmed e.2.toList) :
    ∃ text : String, Renders pairs text.toList := by
  induction pairs with
  | nil => exact ⟨"", Renders.nil⟩
  | cons e pairs ih =>
    obtain ⟨rest, hrest⟩ := ih fun x hx => h x (List.mem_cons_of_mem e hx)
    obtain ⟨hkey, hvalue⟩ := h e List.mem_cons_self
    have hseparator : Separates e.1.toList _ := Separates.sign isGap_nil (Or.inl rfl) isGap_nil
    obtain ⟨line, hline⟩ : ∃ line, EntryLine e.1.toList e.2.toList line :=
      ⟨_, EntryLine.intro isGap_nil hseparator isGap_nil⟩
    refine ⟨String.ofList (line ++ ['\n'] ++ rest.toList), ?_⟩
    rw [String.toList_ofList]
    exact Renders.entry hkey hvalue hline .newline hrest

/-- A later pair for a key replaces an earlier one, and nothing else is read out of a rendering. -/
theorem rendering_read_back {pairs : List (String × String)} {text : String}
    (h : Renders pairs text.toList) :
    parse text = .ofList pairs ∧ ∀ key value,
      (parse text).get? key = some value ↔
        ∃ before after, pairs = before ++ (key, value) :: after ∧ key ∉ after.map Prod.fst := by
  have hparse : parse text = .ofList pairs := by
    unfold parse
    rw [h.entries_eq]
  refine ⟨hparse, fun key value => ?_⟩
  rw [hparse]
  exact OrderedMap.get?_ofList_eq_some_iff

/-- Nothing in a key or a value is taken for what it looks like: a key that starts like a comment, a
value that starts with a sign, one that ends in a backslash, and one that reads like an escape. A
comment that ends in a backslash does not go on. -/
theorem rendering_read_back_signs :
    Renders [("#key", "a\\"), ("", "=v"), ("two words", ""), ("#key", "\\u0041")]
      "! note\\\n\t \\#key : a\\\\ \r\n \r\n=\\=v\ntwo\\ words\t\n\\#key=\\\\u0041\n# end".toList ∧
    (parse "! note\\\n\t \\#key : a\\\\ \r\n \r\n=\\=v\ntwo\\ words\t\n\\#key=\\\\u0041\n# end").get?
      "#key" = some "\\u0041" := by
  have hspace : IsGap [' '] := by decide
  have htab : IsGap ['\t'] := by decide
  have hlead : IsGap ['\t', ' '] := by decide
  have hfirst : EntryLine "#key".toList "a\\".toList "\t \\#key : a\\\\ ".toList :=
    EntryLine.intro hlead (Separates.sign hspace (Or.inr rfl) hspace) hspace
  have hsecond : EntryLine "".toList "=v".toList "=\\=v".toList :=
    EntryLine.intro isGap_nil (Separates.sign isGap_nil (Or.inl rfl) isGap_nil) isGap_nil
  have hthird : EntryLine "two words".toList "".toList "two\\ words\t".toList :=
    EntryLine.intro isGap_nil (Separates.gap (by decide) (List.cons_ne_nil '\t' []) htab) isGap_nil
  have hfourth : EntryLine "#key".toList "\\u0041".toList "\\#key=\\\\u0041".toList :=
    EntryLine.intro isGap_nil (Separates.sign isGap_nil (Or.inl rfl) isGap_nil) isGap_nil
  have hnote : IdleLine "! note\\".toList :=
    @IdleLine.comment [] _ '!' isGap_nil.blank (by decide) (Or.inr rfl) (by decide)
  have hblank : IdleLine " ".toList := IdleLine.blank hspace.blank (by decide)
  have hend : IdleLine "# end".toList :=
    @IdleLine.comment [] _ '#' isGap_nil.blank (by decide) (Or.inl rfl) (by decide)
  have hrenders := Renders.idle hnote .newline <|
    Renders.entry (by decide) (by decide) hfirst .returnNewline <|
    Renders.idle hblank .returnNewline <|
    Renders.entry (by decide) (by decide) hsecond .newline <|
    Renders.entry (by decide) (by decide) hthird .newline <|
    Renders.entry (by decide) (by decide) hfourth .newline <|
    Renders.last hend
  refine ⟨hrenders, ((rendering_read_back ?_).2 _ _).2
    ⟨[("#key", "a\\"), ("", "=v"), ("two words", "")], [], rfl, by decide⟩⟩
  exact hrenders

end Classpath.Properties
