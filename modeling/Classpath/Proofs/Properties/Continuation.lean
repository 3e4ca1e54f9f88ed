import Classpath.Proofs.Properties.Rendering
import Mathlib.Algebra.Ring.Parity
import Mathlib.Data.List.DropRight

namespace Classpath

/-! # Continued lines

A line that ends in an odd number of backslashes goes on with the next one. Whether it does is asked
again after each piece, about all that was joined so far; but a backslash that called for a piece is
gone by then, so each piece answers for itself.

1. **Endings**: the answer for a joined line is that for its last piece.
2. **Texts in parts**: after a line that is whole, reading starts afresh, so a text may be read in
   parts.
3. **Wrapped lines**: a line may be wrapped at any number of places. -/

/-! ## Texts in parts -/

namespace Text

/-- A text that ends a line keeps its lines, whatever comes after it. -/
theorem lines_append {before : List Char} (h : before = [] ∨ before.getLast? = some '\n')
    (rest : List Char) : lines (before ++ rest) = lines before ++ lines rest := by
  -- on the length, since each step takes off a whole line
  induction hn : before.length using Nat.strongRecOn generalizing before with
  | ind n ih =>
    rcases h with rfl | h
    · rfl
    · obtain ⟨line, later, rfl, hline⟩ := List.eq_append_cons_of_mem (List.mem_of_getLast? h)
      have hlater : later = [] ∨ later.getLast? = some '\n' := by
        cases later with
        | nil => exact Or.inl rfl
        | cons c cs =>
          right
          rw [List.getLast?_append, List.getLast?_cons_cons] at h
          simpa using h
      have hshorter : later.length < n := by
        rw [← hn, List.length_append, List.length_cons]
        omega
      have hrest := ih later.length hshorter hlater rfl
      rw [List.append_assoc, List.cons_append, lines_append_newline hline,
        lines_append_newline hline, hrest, List.cons_append]

/-- Leading blanks end where the text starts that is not blank. -/
theorem trimStart_append (cs : List Char) {ds : List Char}
    (h : ∀ c, ds.head? = some c → isBlank c = false) :
    trimStart (cs ++ ds) = trimStart cs ++ ds := by
  induction cs with
  | nil => exact trimStart_of_head h
  | cons c cs ih =>
    unfold trimStart at ih ⊢
    rw [List.cons_append, List.dropWhile_cons, List.dropWhile_cons]
    split
    · exact ih
    · rfl

end Text

namespace Properties

open Text (isBlank trimStart lines chomp)

/-! ## Endings -/

/-- The number of backslashes at the end is odd. -/
def EndsOdd (cs : List Char) : Prop :=
  Odd (cs.rtakeWhile (· = '\\')).length

instance (cs : List Char) : Decidable (EndsOdd cs) :=
  inferInstanceAs (Decidable (Odd _))

theorem continues_eq_true_iff {cs : List Char} : continues cs = true ↔ EndsOdd cs := by
  unfold continues EndsOdd List.rtakeWhile
  rw [decide_eq_true_iff, List.length_reverse, Nat.odd_iff]

theorem continues_eq_false_iff {cs : List Char} : continues cs = false ↔ ¬ EndsOdd cs := by
  rw [← continues_eq_true_iff, Bool.not_eq_true]

theorem continues_append {cs : List Char} (h : continues cs = false) (ds : List Char) :
    continues (cs ++ ds) = continues ds := by
  induction ds using List.reverseRecOn with
  | nil =>
    rw [List.append_nil, h]
    rfl
  | append_singleton ds d ih => rw [← List.append_assoc, continues_snoc, continues_snoc, ih]

theorem continues_blanks {cs : List Char} (h : ∀ c ∈ cs, isBlank c = true) :
    continues cs = false := by
  have hplain : '\\' ∉ cs := by
    intro hmem
    exact absurd (h _ hmem) (by decide)
  have hnothing : continues [] = false := rfl
  exact continues_append_plain hnothing hplain

/-- The blanks at the start do not matter for the end. -/
theorem continues_trimStart (cs : List Char) : continues (trimStart cs) = continues cs := by
  have hblanks : continues (cs.takeWhile isBlank) = false :=
    continues_blanks fun c hc => List.all_eq_true.1 List.all_takeWhile c hc
  have hsplit := continues_append hblanks (cs.dropWhile isBlank)
  rw [List.takeWhile_append_dropWhile] at hsplit
  exact hsplit.symm

/-- The backslash that calls for a piece leaves an even number of them. -/
theorem continues_dropLast {cs : List Char} (h : continues cs = true) :
    continues cs.dropLast = false := by
  induction cs using List.reverseRecOn with
  | nil => rfl
  | append_singleton cs c =>
    rw [continues_snoc, Bool.and_eq_true] at h
    rw [List.dropLast_concat]
    simpa using h.2

/-! ## Texts in parts -/

/-- What becomes of a joined line: it waits for another piece, or it is whole. -/
def continued (whole : List Char) (rest : List (List Char)) : List (List Char) :=
  if continues whole then logicalLines (some whole.dropLast) rest
  else whole :: logicalLines none rest

theorem logicalLines_some (sofar line : List Char) (rest : List (List Char)) :
    logicalLines (some sofar) (line :: rest) = continued (sofar ++ trimStart line) rest :=
  rfl

/-- A line that is not skipped is the first piece. -/
theorem logicalLines_none {line : List Char} (h : isSkipped (trimStart line) = false)
    (rest : List (List Char)) :
    logicalLines none (line :: rest) = logicalLines (some []) (line :: rest) := by
  simp [logicalLines, h]

/-- Nothing waits for a piece after a last line that calls for none. -/
theorem logicalLines_append {pending : Option (List Char)} {ls : List (List Char)}
    (hpending : ∀ sofar, pending = some sofar → continues sofar = false ∧ ls ≠ [])
    (hlast : ∀ line, ls.getLast? = some line → continues line = false)
    (rest : List (List Char)) :
    logicalLines pending (ls ++ rest) = logicalLines pending ls ++ logicalLines none rest := by
  induction ls generalizing pending with
  | nil =>
    cases pending with
    | none => rfl
    | some sofar => exact absurd rfl (hpending sofar rfl).2
  | cons l ls ih =>
    have hlater : ∀ line, ls.getLast? = some line → continues line = false := by
      intro line hline
      refine hlast line ?_
      rw [List.getLast?_cons, hline]
      rfl
    have hnone : ∀ sofar, none = some sofar → continues sofar = false ∧ ls ≠ [] := by
      intro sofar hsofar
      cases hsofar
    -- whatever was joined with this line, it calls for a piece exactly if the line does
    have hjoined {whole : List Char} (hwhole : continues whole = continues l) :
        continued whole (ls ++ rest) = continued whole ls ++ logicalLines none rest := by
      unfold continued
      by_cases hcontinues : continues whole = true
      · rw [if_pos hcontinues, if_pos hcontinues]
        refine ih (fun sofar hsofar => ?_) hlater
        cases hsofar
        refine ⟨continues_dropLast hcontinues, ?_⟩
        rintro rfl
        rw [hwhole, hlast l rfl] at hcontinues
        cases hcontinues
      · rw [if_neg hcontinues, if_neg hcontinues, ih hnone hlater, List.cons_append]
    rw [List.cons_append]
    cases pending with
    | none =>
      by_cases hskipped : isSkipped (trimStart l) = true
      · rw [logicalLines_cons_idle hskipped, logicalLines_cons_idle hskipped]
        exact ih hnone hlater
      · rw [Bool.not_eq_true] at hskipped
        rw [logicalLines_none hskipped, logicalLines_none hskipped]
        exact hjoined (continues_trimStart l)
    | some sofar =>
      rw [logicalLines_some, logicalLines_some]
      refine hjoined ?_
      rw [continues_append (hpending sofar rfl).1, continues_trimStart]

/-- A text that is empty or ends a line, and whose last line calls for no other. -/
structure EndsLine (before : List Char) : Prop where
  ended : before = [] ∨ before.getLast? = some '\n'
  last : ∀ line, (lines before).getLast? = some line → ¬ EndsOdd line

/-- After such a text reading starts afresh. -/
theorem EndsLine.entries_append {before : List Char} (h : EndsLine before) (rest : List Char) :
    entries (before ++ rest) = entries before ++ entries rest := by
  have hlast : ∀ line, (lines before).getLast? = some line → continues line = false := by
    intro line hline
    exact continues_eq_false_iff.2 (h.last line hline)
  have hnone : ∀ sofar, none = some sofar → continues sofar = false ∧ lines before ≠ [] := by
    intro sofar hsofar
    cases hsofar
  unfold entries
  rw [Text.lines_append h.ended, logicalLines_append hnone hlast, List.map_append]

/-- A text may be read in two parts, wherever a line ends that calls for no other: the map of the
second part overrides that of the first one. Each key of the second part has the value from there,
every other key has its value from the first part, and there are no other keys. -/
theorem parse_overridden {before : String} (h : EndsLine before.toList) (rest : String) :
    parse (before ++ rest) = (parse before).insertAll (parse rest).entries ∧
      ∀ k, (parse (before ++ rest)).get? k = ((parse rest).get? k).or ((parse before).get? k) := by
  have hmap : parse (before ++ rest) = (parse before).insertAll (parse rest).entries := by
    unfold parse
    rw [String.toList_append, h.entries_append, OrderedMap.insertAll_entries_ofList]
    exact OrderedMap.insertAll_append _ _ _
  refine ⟨hmap, fun k => ?_⟩
  rw [hmap, OrderedMap.get?_insertAll_entries]

/-- The first part has a line in two pieces, a comment that ends in a backslash and, at its end, a
value that ends in an escaped one; the second part ends where another line is called for. -/
theorem parse_overridden_backslashes :
    EndsLine "a=1\\\r\n\t2\n# x\\\nb: old\\\\\n".toList ∧
      (parse "a=1\\\r\n\t2\n# x\\\nb: old\\\\\n").get? "b" = some "old\\" ∧
      (parse ("a=1\\\r\n\t2\n# x\\\nb: old\\\\\n" ++ " b=new\\")).entries =
        [("a", "12"), ("b", "new")] ∧
      ∀ k, k ≠ "b" → (parse ("a=1\\\r\n\t2\n# x\\\nb: old\\\\\n" ++ " b=new\\")).get? k =
        (parse "a=1\\\r\n\t2\n# x\\\nb: old\\\\\n").get? k := by
  have hbefore : EndsLine "a=1\\\r\n\t2\n# x\\\nb: old\\\\\n".toList := by
    constructor
    · decide
    · intro line hline
      cases hline
      decide
  obtain ⟨hmap, hget⟩ := parse_overridden hbefore " b=new\\"
  refine ⟨hbefore, by decide, ?_, ?_⟩
  · rw [hmap]
    decide
  · intro k hk
    have hother : (parse " b=new\\").get? k = none := by
      have hentries : (parse " b=new\\").entries = [("b", "new")] := by decide
      rw [OrderedMap.get?, hentries]
      simp [OrderedMap.lookIn, hk.symm]
    rw [hget, hother, Option.none_or]

/-! ## Wrapped lines -/

/-- The texts of a line that is wrapped at any number of places: after an even number of
backslashes, and before a character that is not blank or at the end of the line. -/
inductive Wraps : List Char → List Char → Prop where
  | whole (line : List Char) : Wraps line line
  | broken {x y gap text : List Char} (hx : ¬ EndsOdd x) (hgap : IsGap gap)
      (hy : ∀ c, y.head? = some c → isBlank c = false) (htext : Wraps y text) :
      Wraps (x ++ y) (x ++ '\\' :: '\n' :: (gap ++ text))

/-- A text that ends the line before it, if it is not empty. -/
def StartsAfterLine (after : List Char) : Prop :=
  after = [] ∨ ∃ ending rest, Ending ending ∧ after = ending ++ rest

/-- Neither line feeds nor carriage returns. -/
def InLine (cs : List Char) : Prop :=
  '\n' ∉ cs ∧ '\r' ∉ cs

theorem IsGap.inLine {gap : List Char} (h : IsGap gap) : InLine gap :=
  ⟨h.not_mem (by decide) (by decide), h.not_mem (by decide) (by decide)⟩

theorem inLine_append {cs ds : List Char} : InLine (cs ++ ds) ↔ InLine cs ∧ InLine ds := by
  unfold InLine
  rw [List.mem_append, List.mem_append]
  tauto

/-- A piece before a break is a line of its own. -/
theorem lines_append_break {x : List Char} (h : '\n' ∉ x) (rest : List Char) :
    lines (x ++ '\\' :: '\n' :: rest) = (x ++ ['\\']) :: lines rest := by
  have hnewline : '\n' ∉ x ++ ['\\'] := by
    simpa using h
  have hchomp : chomp (x ++ ['\\']) = x ++ ['\\'] := Text.chomp_append_cons x (by decide) []
  have hcut := Text.lines_append_newline hnewline rest
  rw [hchomp, List.append_assoc] at hcut
  exact hcut

theorem trimStart_append_break (x : List Char) :
    trimStart (x ++ ['\\']) = trimStart x ++ ['\\'] := by
  refine Text.trimStart_append x fun c hc => ?_
  cases hc
  decide

section Pieces

variable {after : List Char} (hafter : StartsAfterLine after)
include hafter

/-- The lines from the last piece of a line on. -/
theorem StartsAfterLine.exists_lines : ∃ rest, (after = [] → rest = []) ∧
    ∀ cs, InLine cs → (cs = [] → after ≠ []) → lines (cs ++ after) = cs :: rest := by
  rcases hafter with rfl | ⟨ending, rest, hending, rfl⟩
  · refine ⟨[], fun _ => rfl, fun cs hcs hne => ?_⟩
    rw [List.append_nil]
    exact Text.lines_of_not_mem hcs.1 fun hnil => hne hnil rfl
  · refine ⟨lines rest, fun hnil => ?_, fun cs hcs _ => ?_⟩
    · cases hending <;> cases hnil
    · obtain ⟨cut, hcut, hlines⟩ := hending.lines_append hcs.1 rest
      rw [List.append_assoc] at hlines
      rw [hlines]
      rcases hcut with rfl | rfl
      · rfl
      · rw [Text.chomp_eq_self hcs.2]

/-- The last piece of a line is joined to what came before. -/
theorem StartsAfterLine.exists_continued : ∃ rest, ∀ sofar cs, continues sofar = false →
    InLine cs →
    logicalLines (some sofar) (lines (cs ++ after)) = continued (sofar ++ trimStart cs) rest := by
  obtain ⟨rest, hnil, hlines⟩ := hafter.exists_lines
  refine ⟨rest, fun sofar cs hsofar hcs => ?_⟩
  by_cases hempty : cs = [] ∧ after = []
  · -- there is no such line, and none is needed
    obtain ⟨rfl, rfl⟩ := hempty
    rw [hnil rfl, continued]
    simp [lines, logicalLines, trimStart, hsofar]
  · rw [hlines cs hcs fun hcs => not_and.1 hempty hcs, logicalLines_some]

/-- A line that goes on with a wrapped one goes on with it in one piece as well. -/
theorem Wraps.logicalLines_some {line text : List Char} (h : Wraps line text) (hline : InLine line)
    {sofar gap : List Char} (hsofar : continues sofar = false) (hgap : IsGap gap) :
    logicalLines (some sofar) (lines (gap ++ text ++ after)) =
      logicalLines (some sofar) (lines (gap ++ line ++ after)) := by
  induction h generalizing sofar gap with
  | whole => rfl
  | @broken x y next text hx hnext hy _ ih =>
    obtain ⟨hxline, hyline⟩ := inLine_append.1 hline
    have hgapline := hgap.inLine
    have hxwhole : continues (gap ++ x) = false := by
      rw [continues_append (continues_blanks hgap.blank)]
      exact continues_eq_false_iff.2 hx
    have hjoined : continues (sofar ++ trimStart (gap ++ x)) = false := by
      rw [continues_append hsofar, continues_trimStart, hxwhole]
    -- the first piece, up to its line feed
    have hfirst : lines (gap ++ (x ++ '\\' :: '\n' :: (next ++ text)) ++ after) =
        (gap ++ x ++ ['\\']) :: lines (next ++ text ++ after) := by
      have hnewline : '\n' ∉ gap ++ x := by
        simp [hgapline.1, hxline.1]
      rw [← lines_append_break hnewline]
      simp
    obtain ⟨rest, hrest⟩ := hafter.exists_continued
    calc logicalLines (some sofar) (lines (gap ++ (x ++ '\\' :: '\n' :: (next ++ text)) ++ after))
        = continued (sofar ++ trimStart (gap ++ x) ++ ['\\']) (lines (next ++ text ++ after)) := by
          rw [hfirst, Properties.logicalLines_some, trimStart_append_break, ← List.append_assoc]
      _ = logicalLines (some (sofar ++ trimStart (gap ++ x))) (lines (next ++ text ++ after)) := by
          rw [continued, continues_snoc, hjoined, List.dropLast_concat]
          rfl
      _ = logicalLines (some (sofar ++ trimStart (gap ++ x))) (lines (next ++ y ++ after)) :=
          ih hyline hjoined hnext
      _ = continued (sofar ++ trimStart (gap ++ x) ++ y) rest := by
          rw [hrest _ _ hjoined (inLine_append.2 ⟨hnext.inLine, hyline⟩),
            Text.trimStart_append_blanks hnext.blank, Text.trimStart_of_head hy]
      _ = logicalLines (some sofar) (lines (gap ++ (x ++ y) ++ after)) := by
          rw [hrest _ _ hsofar (inLine_append.2 ⟨hgapline, hline⟩), ← List.append_assoc,
            Text.trimStart_append _ hy, List.append_assoc]

end Pieces

/-- Only blank lines and comments are skipped. -/
theorem idleLine_of_isSkipped {line : List Char} (hline : '\n' ∉ line)
    (h : isSkipped (trimStart line) = true) : IdleLine line := by
  have hsplit : line.takeWhile isBlank ++ trimStart line = line := List.takeWhile_append_dropWhile
  have hblank : ∀ c ∈ line.takeWhile isBlank, isBlank c = true := fun c hc =>
    List.all_eq_true.1 List.all_takeWhile c hc
  rw [← hsplit, List.mem_append, not_or] at hline
  cases hstart : trimStart line with
  | nil =>
    rw [hstart, List.append_nil] at hsplit
    rw [← hsplit]
    exact IdleLine.blank hblank hline.1
  | cons c cs =>
    rw [hstart] at h hline hsplit
    have hsign : c = '#' ∨ c = '!' := by simpa [isSkipped] using h
    rw [← hsplit]
    exact IdleLine.comment hblank hline.1 hsign fun hc => hline.2 (List.mem_cons_of_mem c hc)

/-- A wrapped line starts as the line does, or with a backslash. -/
theorem Wraps.isSkipped_first {line text : List Char} (h : Wraps line text) (hline : InLine line)
    (hidle : ¬ IdleLine line) {after : List Char} (hafter : StartsAfterLine after) :
    ∃ first rest, lines (text ++ after) = first :: rest ∧ isSkipped (trimStart first) = false := by
  have hkept : isSkipped (trimStart line) = false := by
    rw [← Bool.not_eq_true]
    exact mt (idleLine_of_isSkipped hline.1) hidle
  cases h with
  | whole =>
    obtain ⟨rest, -, hlines⟩ := hafter.exists_lines
    refine ⟨line, rest, hlines line hline fun hnil => ?_, hkept⟩
    rw [hnil] at hkept
    cases hkept
  | @broken x y gap text hx hgap hy htext =>
    refine ⟨x ++ ['\\'], lines (gap ++ text ++ after), ?_, ?_⟩
    · rw [← lines_append_break (inLine_append.1 hline).1.1]
      simp
    · rw [Text.trimStart_append _ hy] at hkept
      rw [trimStart_append_break]
      cases hstart : trimStart x with
      | nil => rfl
      | cons c cs =>
        rw [hstart] at hkept
        exact hkept

/-- A line that is neither blank nor a comment may be wrapped at any number of places, also within a
key, a separator or an escape, and whatever its pieces look like: the map is that of the line in one
piece. -/
theorem parse_wraps {before line text after : String} (hbefore : EndsLine before.toList)
    (hline : InLine line.toList) (hidle : ¬ IdleLine line.toList)
    (hwraps : Wraps line.toList text.toList) (hafter : StartsAfterLine after.toList) :
    parse (before ++ text ++ after) = parse (before ++ line ++ after) := by
  have hstart {cs : List Char} (h : Wraps line.toList cs) :
      logicalLines none (lines (cs ++ after.toList)) =
        logicalLines (some []) (lines (cs ++ after.toList)) := by
    obtain ⟨first, rest, hlines, hkept⟩ := h.isSkipped_first hline hidle hafter
    rw [hlines, logicalLines_none hkept]
  have hnothing : continues [] = false := rfl
  have hsame := hwraps.logicalLines_some hafter hline hnothing isGap_nil
  simp only [List.nil_append] at hsame
  have hentries : entries (text.toList ++ after.toList) =
      entries (line.toList ++ after.toList) := by
    unfold entries
    rw [hstart hwraps, hstart (Wraps.whole line.toList), hsame]
  unfold parse
  simp only [String.toList_append, List.append_assoc, hbefore.entries_append, hentries]

/-- A line with an escaped backslash and a numbered character, in pieces: a key, a sign, backslashes
alone, parts of a number, and what would be a comment if it stood by itself. -/
theorem parse_wraps_pieces :
    EndsLine "# note\\\\\r\n".toList ∧ ¬ IdleLine "k=\\\\\\u0041#x".toList ∧
      parse ("# note\\\\\r\n" ++ "k\\\n =\\\n\\\\\\\n\t\\u00\\\n 41\\\n#x" ++ "\r\nl") =
        parse ("# note\\\\\r\n" ++ "k=\\\\\\u0041#x" ++ "\r\nl") := by
  have hbefore : EndsLine "# note\\\\\r\n".toList := by
    constructor
    · decide
    · intro line hline
      cases hline
      decide
  have hidle : ¬ IdleLine "k=\\\\\\u0041#x".toList := by
    intro h
    exact absurd h.isSkipped_start (by decide)
  have hhead {c : Char} (hc : isBlank c = false) (cs : List Char) :
      ∀ d, (c :: cs).head? = some d → isBlank d = false := by
    intro d hd
    cases hd
    exact hc
  have hwraps : Wraps "k=\\\\\\u0041#x".toList
      "k\\\n =\\\n\\\\\\\n\t\\u00\\\n 41\\\n#x".toList :=
    @Wraps.broken ['k'] _ [' '] _ (by decide) (by decide) (hhead (by decide) _) <|
    @Wraps.broken ['='] _ [] _ (by decide) (by decide) (hhead (by decide) _) <|
    @Wraps.broken ['\\', '\\'] _ ['\t'] _ (by decide) (by decide) (hhead (by decide) _) <|
    @Wraps.broken ['\\', 'u', '0', '0'] _ [' '] _ (by decide) (by decide) (hhead (by decide) _) <|
    @Wraps.broken ['4', '1'] _ [] _ (by decide) (by decide) (hhead (by decide) _) <|
    Wraps.whole ['#', 'x']
  have hafter : StartsAfterLine "\r\nl".toList := Or.inr ⟨_, ['l'], .returnNewline, rfl⟩
  have hline : InLine "k=\\\\\\u0041#x".toList := ⟨by decide, by decide⟩
  exact ⟨hbefore, hidle, parse_wraps hbefore hline hidle hwraps hafter⟩

end Properties

end Classpath
