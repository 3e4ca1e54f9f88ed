import Classpath.Proofs.Outcomes
import Classpath.Proofs.Toml.Values

namespace Classpath.Toml

/-! # Written statements read back

Each statement takes its line, a header also the blank line above it, and a text of written
statements reads as exactly these statements, also below lines that hold nothing. -/

/-- The statements whose text has a meaning: short paths and plain values. -/
def Statement.IsSpelled : Statement → Prop
  | .entry path _ d => path.length < pathLimit ∧ IsPlain nestingLimit d
  | .table path _ => path.length < pathLimit
  | .element path _ => path.length < pathLimit

/-! ## One statement -/

theorem endStatement_newline (rest : List Char) : endStatement ('\n' :: rest) = some rest := by
  simp [endStatement, skipSpaces, isSpace]

theorem startsValue_of_startsKey {c : Char} (h : startsKey c = true) : startsValue c = true := by
  simp [startsValue, h]

/-- A written value is none that is missing. -/
theorem lacksValue_written {depth : Nat} {d : Document} (h : IsPlain depth d) (rest : List Char) :
    lacksValue (writtenValue d ++ rest) = false := by
  obtain ⟨c, t, hc, ht⟩ := writtenValue_head h
  rw [ht, List.cons_append]
  have hnewline : c ≠ '\n' := ne_of_test hc rfl
  have hreturn : c ≠ '\r' := ne_of_test hc rfl
  have hcomment : c ≠ '#' := ne_of_test hc rfl
  have hcomma : c ≠ ',' := ne_of_test hc rfl
  simp [lacksValue, isLineBreak, hnewline, hreturn, hcomment, hcomma]

theorem skipSpaces_written {depth : Nat} {d : Document} (h : IsPlain depth d) (rest : List Char) :
    skipSpaces (' ' :: (writtenValue d ++ rest)) = writtenValue d ++ rest := by
  obtain ⟨c, t, hc, ht⟩ := writtenValue_head h
  have hblank : c ≠ ' ' := ne_of_test hc rfl
  have htab : c ≠ '\t' := ne_of_test hc rfl
  have hspace : isSpace c = false := by simp [isSpace, hblank, htab]
  have hdrop : skipSpaces (' ' :: (c :: (t ++ rest))) = skipSpaces (c :: (t ++ rest)) := by
    simp [skipSpaces, isSpace]
  rw [ht, List.cons_append, hdrop, skipSpaces_cons hspace]

theorem readEntry_written {path : List String} (hpath : path.length < pathLimit) (key : String)
    {d : Document} (hd : IsPlain nestingLimit d) (rest : List Char) :
    readEntry (writtenPath path key ++ ' ' :: '=' :: ' ' :: (writtenValue d ++ '\n' :: rest)) =
      some (.ok (.entry path key d), '\n' :: rest) := by
  have hends : EndsPath (' ' :: '=' :: ' ' :: (writtenValue d ++ '\n' :: rest)) := by
    refine ⟨rfl, ?_⟩
    simp [skipSpaces, isSpace]
  obtain ⟨hasLast, hkey⟩ := readPath_written hpath key hends
  have hsign : skipSpaces (' ' :: '=' :: ' ' :: (writtenValue d ++ '\n' :: rest)) =
      '=' :: ' ' :: (writtenValue d ++ '\n' :: rest) := by
    simp [skipSpaces, isSpace]
  rw [hsign] at hkey
  have hline : EndsValue ('\n' :: rest) := rfl
  have hvalue := readValue_written hd hline
  rw [readEntry, hkey]
  simp [skipSpaces_written hd, lacksValue_written hd, hvalue, entryOf, Except.bind, Except.map]

theorem readStatement_entry {c : Char} (hc : startsKey c = true) (t : List Char) :
    readStatement (c :: t) = readEntry (c :: t) := by
  have hbracket : c ≠ '[' := ne_of_test hc rfl
  unfold readStatement
  split
  next heq => exact absurd (List.cons.inj heq).1 hbracket
  next heq => exact absurd (List.cons.inj heq).1 hbracket
  next => rfl

theorem readStatement_table {path : List String} (hpath : path.length < pathLimit) (key : String)
    (rest : List Char) :
    readStatement ('[' :: (writtenPath path key ++ ']' :: rest)) =
      some (.ok (.table path key), rest) := by
  obtain ⟨c, t, hc, ht⟩ := writtenPath_head path key
  have hends : EndsPath (']' :: rest) := ⟨rfl, by simp [skipSpaces, isSpace]⟩
  obtain ⟨hasLast, hkey⟩ := readPath_written hpath key hends
  rw [skipSpaces_cons (by decide)] at hkey
  have hspaces : skipSpaces (writtenPath path key ++ ']' :: rest) =
      writtenPath path key ++ ']' :: rest := by
    rw [ht]
    exact skipSpaces_cons (isSpace_of_startsKey hc) _
  unfold readStatement
  split
  -- A second bracket would be the start of the path, and no key starts with one.
  next heq =>
    rw [ht] at heq
    exact absurd (List.cons.inj (List.cons.inj heq).2).1 (ne_of_test hc rfl)
  next cs _ heq =>
    have hcs : cs = writtenPath path key ++ ']' :: rest := (List.cons.inj heq).2.symm
    rw [hcs, hspaces, hkey]
    rfl
  next hne => exact absurd rfl (hne _)

theorem readStatement_element {path : List String} (hpath : path.length < pathLimit) (key : String)
    (rest : List Char) :
    readStatement ('[' :: '[' :: (writtenPath path key ++ ']' :: ']' :: rest)) =
      some (.ok (.element path key), rest) := by
  obtain ⟨c, t, hc, ht⟩ := writtenPath_head path key
  have hends : EndsPath (']' :: ']' :: rest) := ⟨rfl, by simp [skipSpaces, isSpace]⟩
  obtain ⟨hasLast, hkey⟩ := readPath_written hpath key hends
  rw [skipSpaces_cons (by decide)] at hkey
  have hspaces : skipSpaces (writtenPath path key ++ ']' :: ']' :: rest) =
      writtenPath path key ++ ']' :: ']' :: rest := by
    rw [ht]
    exact skipSpaces_cons (isSpace_of_startsKey hc) _
  rw [readStatement, hspaces, hkey]
  rfl

/-! ## All statements -/

/-- What reading does with the statement at the start of a text. -/
theorem readStatements_step {cs t after next : List Char} {c : Char}
    {statement : Except Misspelt Statement} (hstart : skipBlanks false cs = some (c :: t))
    (hread : readStatement (c :: t) = some (statement, after))
    (hend : endStatement after = some next) (hnext : next.length < cs.length) :
    readStatements cs = (readStatements next).map (statement :: ·) := by
  rw [readStatements, hstart]
  simp [hread, hend, hnext]

theorem skipBlanks_newline (t : List Char) : skipBlanks false ('\n' :: t) = skipBlanks false t := by
  simp [skipBlanks, isLineBreak]

/-- A written statement is read off the start of a text. -/
theorem readStatements_written {s : Statement} (hs : s.IsSpelled) {blank : List Char}
    (hblank : ∀ t, skipBlanks false (blank ++ t) = skipBlanks false t) (rest : List Char) :
    readStatements (blank ++ (writtenStatement s ++ rest)) =
      (readStatements rest).map (.ok s :: ·) := by
  cases s with
  | entry path key d =>
    obtain ⟨c, t, hc, ht⟩ := writtenPath_head path key
    have hread := readEntry_written hs.1 key hs.2 rest
    have hwritten : writtenStatement (.entry path key d) ++ rest =
        writtenPath path key ++ ' ' :: '=' :: ' ' :: (writtenValue d ++ '\n' :: rest) := by
      simp [writtenStatement]
    rw [hwritten]
    rw [ht, List.cons_append] at hread ⊢
    refine readStatements_step ((hblank _).trans (skipBlanks_cons (startsValue_of_startsKey hc) _))
      ((readStatement_entry hc _).trans hread) (endStatement_newline rest) ?_
    simp
    omega
  | table path key =>
    have hwritten : writtenStatement (.table path key) ++ rest =
        '\n' :: '[' :: (writtenPath path key ++ ']' :: '\n' :: rest) := by
      simp [writtenStatement]
    rw [hwritten]
    refine readStatements_step
      ((hblank _).trans ((skipBlanks_newline _).trans (skipBlanks_cons rfl _)))
      (readStatement_table hs key _) (endStatement_newline rest) ?_
    simp
    omega
  | element path key =>
    have hwritten : writtenStatement (.element path key) ++ rest =
        '\n' :: '[' :: '[' :: (writtenPath path key ++ ']' :: ']' :: '\n' :: rest) := by
      simp [writtenStatement]
    rw [hwritten]
    refine readStatements_step
      ((hblank _).trans ((skipBlanks_newline _).trans (skipBlanks_cons rfl _)))
      (readStatement_element hs key _) (endStatement_newline rest) ?_
    simp
    omega

/-- A text of written statements reads as these statements. -/
theorem readStatements_all {statements : List Statement} (h : ∀ s ∈ statements, s.IsSpelled)
    {blank : List Char} (hblank : ∀ t, skipBlanks false (blank ++ t) = skipBlanks false t) :
    readStatements (blank ++ statements.flatMap writtenStatement) = some (statements.map .ok) := by
  induction statements generalizing blank with
  | nil =>
    rw [readStatements, List.flatMap_nil, hblank]
    rfl
  | cons s statements ih =>
    have htail : readStatements (statements.flatMap writtenStatement) =
        some (statements.map .ok) := by
      have hnone (t : List Char) : skipBlanks false ([] ++ t) = skipBlanks false t := rfl
      exact ih (fun x hx => h x (List.mem_cons_of_mem s hx)) hnone
    rw [List.flatMap_cons, readStatements_written (h s List.mem_cons_self) hblank, htail]
    rfl

theorem dropMark_cons {c : Char} (hc : c ≠ '\uFEFF') (t : List Char) :
    dropMark (c :: t) = c :: t := by
  unfold dropMark
  split
  next heq => exact absurd (List.cons.inj heq).1 hc
  next => rfl

/-- No written text starts with a byte order mark. -/
theorem dropMark_written (statements : List Statement) :
    dropMark (statements.flatMap writtenStatement) = statements.flatMap writtenStatement := by
  -- The mark is no character with which a key starts, and headers start with a line break.
  cases statements with
  | nil => rfl
  | cons s statements =>
    cases s with
    | entry path key d =>
      obtain ⟨c, t, hc, ht⟩ := writtenPath_head path key
      have hmark : c ≠ '\uFEFF' := ne_of_test hc rfl
      rw [List.flatMap_cons, writtenStatement, ht]
      exact dropMark_cons hmark _
    | table path key => exact dropMark_cons (by decide) _
    | element path key => exact dropMark_cons (by decide) _

end Classpath.Toml
