import Classpath.Proofs.Toml.Strings
import Classpath.Toml.Reader
import Classpath.Toml.Writer

namespace Classpath.Toml

/-! # Written keys read back

A key is written bare, with escapes, or between single quotes, and in each of these forms it reads
back before anything that cannot go on with a bare key. A path is its keys with points between
them, and reads back as a whole if it is short enough. -/

/-- Neither a character of a bare key nor a quote comes next. -/
def EndsKey (rest : List Char) : Prop :=
  rest.head?.all (fun c => !isKeyChar c && !isQuote c) = true

theorem EndsKey.noQuote {rest : List Char} (h : EndsKey rest) : NoQuote rest := by
  cases rest with
  | nil => simp [NoQuote]
  | cons c rest =>
    have hquote : isQuote c = false := by
      simp only [EndsKey, List.head?_cons, Option.all_some, Bool.and_eq_true,
        Bool.not_eq_true'] at h
      exact h.2
    constructor
    · intro hc
      cases hc
      exact absurd hquote (by decide)
    · intro hc
      cases hc
      exact absurd hquote (by decide)

/-! ## One key -/

/-- Characters that a test tells apart are different. -/
theorem ne_of_test {p : Char → Bool} {c d : Char} (hc : p c = true) (hd : p d = false) :
    c ≠ d := by
  rintro rfl
  rw [hc] at hd
  exact absurd hd (by decide)

/-- The characters of bare keys are neither delimiters nor points. -/
theorem isKeyChar_of_bare {c : Char} (h : isBareKeyChar c = true) : isKeyChar c = true := by
  simp [isKeyChar, isDelimiter, isSpace, ne_of_test h (d := ' ') rfl, ne_of_test h (d := '\t') rfl,
    ne_of_test h (d := '\n') rfl, ne_of_test h (d := '\r') rfl, ne_of_test h (d := '=') rfl,
    ne_of_test h (d := ',') rfl, ne_of_test h (d := '#') rfl, ne_of_test h (d := '[') rfl,
    ne_of_test h (d := ']') rfl, ne_of_test h (d := '\x7b') rfl, ne_of_test h (d := '\x7d') rfl,
    ne_of_test h (d := '.') rfl]

theorem takeWhile_of_all {p : Char → Bool} {word rest : List Char} (hword : word.all p = true)
    (hrest : rest.head?.all (fun c => !p c) = true) :
    (word ++ rest).takeWhile p = word ∧ (word ++ rest).dropWhile p = rest := by
  have hnone : rest.takeWhile p = [] ∧ rest.dropWhile p = rest := by
    cases rest with
    | nil => exact ⟨rfl, rfl⟩
    | cons c rest =>
      have hc : p c = false := by simpa using hrest
      simp [hc]
  rw [List.all_eq_true] at hword
  rw [List.takeWhile_append_of_pos hword, List.dropWhile_append_of_pos hword, hnone.1, hnone.2,
    List.append_nil]
  exact ⟨rfl, rfl⟩

/-- A bare key reads back. -/
theorem readKey_bare {cs rest : List Char} (hne : cs ≠ []) (hcs : cs.all isBareKeyChar = true)
    (hrest : EndsKey rest) : readKey (cs ++ rest) = (.ok (String.ofList cs), rest) := by
  have hkey : cs.all isKeyChar = true := by
    rw [List.all_eq_true] at hcs ⊢
    exact fun c hc => isKeyChar_of_bare (hcs c hc)
  have hstop : rest.head?.all (fun c => !isKeyChar c) = true := by
    cases rest with
    | nil => rfl
    | cons c rest =>
      simp only [EndsKey, List.head?_cons, Option.all_some, Bool.and_eq_true] at hrest
      exact hrest.1
  obtain ⟨hword, hdrop⟩ := takeWhile_of_all hkey hstop
  cases cs with
  | nil => exact absurd rfl hne
  | cons c cs =>
    have hc : isBareKeyChar c = true := by
      rw [List.all_eq_true] at hcs
      exact hcs c List.mem_cons_self
    have hdouble : c ≠ '"' := ne_of_test hc rfl
    have hsingle : c ≠ '\'' := ne_of_test hc rfl
    rw [List.cons_append] at hword hdrop ⊢
    -- Only the last branch of the reader is for keys that start with no quote.
    unfold readKey
    split
    next heq => exact absurd (List.cons.inj heq).1 hdouble
    next heq => exact absurd (List.cons.inj heq).1 hsingle
    next heq => exact absurd (List.cons.inj heq).1 hdouble
    next heq => exact absurd (List.cons.inj heq).1 hsingle
    next =>
      dsimp only
      rw [hword, hdrop, if_pos ⟨List.cons_ne_nil _ _, hcs⟩]
      rfl

theorem readKey_double {t : List Char} (h : ∀ u, t ≠ '"' :: '"' :: u) :
    readKey ('"' :: t) = readQuoted readLine ('"' :: t) := by
  unfold readKey
  split
  next heq => exact absurd (List.cons.inj heq).2 (h _)
  next heq => exact absurd (List.cons.inj heq).1 (by decide)
  next heq => rw [heq]
  next heq => exact absurd (List.cons.inj heq).1 (by decide)
  next hne _ => exact absurd rfl (hne t)

theorem readKey_single {t : List Char} (h : ∀ u, t ≠ '\'' :: '\'' :: u) :
    readKey ('\'' :: t) = readQuoted readLine ('\'' :: t) := by
  unfold readKey
  split
  next heq => exact absurd (List.cons.inj heq).1 (by decide)
  next heq => exact absurd (List.cons.inj heq).2 (h _)
  next heq => exact absurd (List.cons.inj heq).1 (by decide)
  next heq => rw [heq]
  next hne => exact absurd rfl (hne t)

/-- A key with escapes reads back. -/
theorem readKey_basic (cs : List Char) {rest : List Char} (hrest : NoQuote rest) :
    readKey (writtenAs cs .basic ++ rest) = (.ok (String.ofList cs), rest) := by
  have htriple := append_quote_ne (head?_flatMap_escapedLine cs) hrest.1
  simp only [writtenAs, List.append_assoc, List.cons_append, List.nil_append]
  rw [readKey_double htriple, readQuoted, readLine, readBasic_written]
  rfl

theorem readKey_literal {cs : List Char} (hc : ∀ c ∈ cs, isControl c = false) (hq : '\'' ∉ cs)
    {rest : List Char} (hrest : NoQuote rest) :
    readKey (writtenAs cs .literal ++ rest) = (.ok (String.ofList cs), rest) := by
  have hhead : cs.head? ≠ some '\'' := fun h => hq (List.mem_of_mem_head? h)
  have htriple := append_quote_ne hhead hrest.2
  simp only [writtenAs, List.append_assoc, List.cons_append, List.nil_append]
  rw [readKey_single htriple, readQuoted, readLine, readLiteral_written hc hq]
  rfl

/-- Every key reads back in the form that is chosen for it. -/
theorem readKey_written (cs : List Char) {rest : List Char} (hrest : EndsKey rest) :
    readKey (writtenKey cs ++ rest) = (.ok (String.ofList cs), rest) := by
  unfold writtenKey
  dsimp only
  split
  next h => exact readKey_bare h.1 h.2 hrest
  split
  next => exact readKey_basic cs hrest.noQuote
  split
  next h =>
    simp only [Bool.and_eq_true, Bool.not_eq_true', List.any_eq_false, List.contains_eq_mem,
      decide_eq_false_iff_not, Bool.not_eq_true] at h
    exact readKey_literal h.1 h.2 hrest.noQuote
  next => exact readKey_basic cs hrest.noQuote

/-! ## Paths -/

/-- The characters with which written keys start. -/
def startsKey (c : Char) : Bool :=
  isBareKeyChar c || isQuote c

theorem writtenKey_head (cs : List Char) : ∃ c t, startsKey c = true ∧ writtenKey cs = c :: t := by
  unfold writtenKey
  dsimp only
  split
  next h =>
    obtain ⟨hne, hall⟩ := h
    cases cs with
    | nil => exact absurd rfl hne
    | cons c cs =>
      rw [List.all_cons, Bool.and_eq_true] at hall
      exact ⟨c, cs, by simp [startsKey, hall.1], rfl⟩
  split
  next => exact ⟨'"', _, rfl, rfl⟩
  split
  next => exact ⟨'\'', _, rfl, rfl⟩
  next => exact ⟨'"', _, rfl, rfl⟩

theorem isSpace_of_startsKey {c : Char} (h : startsKey c = true) : isSpace c = false := by
  have hspace : c ≠ ' ' := ne_of_test h rfl
  have htab : c ≠ '\t' := ne_of_test h rfl
  simp [isSpace, hspace, htab]

theorem skipSpaces_cons {c : Char} (h : isSpace c = false) (t : List Char) :
    skipSpaces (c :: t) = c :: t := by
  simp [skipSpaces, h]

theorem writtenPath_nil (key : String) : writtenPath [] key = writtenKey key.toList :=
  rfl

theorem writtenPath_cons (k : String) (path : List String) (key : String) :
    writtenPath (k :: path) key = writtenKey k.toList ++ '.' :: writtenPath path key := by
  have hne : ∃ s ss, (path ++ [key]).map (fun k => writtenKey k.toList) = s :: ss := by
    cases path with
    | nil => exact ⟨_, _, rfl⟩
    | cons k path => exact ⟨_, _, rfl⟩
  obtain ⟨s, ss, hs⟩ := hne
  simp [writtenPath, hs, Text.joined]

theorem writtenPath_head (path : List String) (key : String) :
    ∃ c t, startsKey c = true ∧ writtenPath path key = c :: t := by
  cases path with
  | nil => exact writtenKey_head key.toList
  | cons k path =>
    obtain ⟨c, t, hc, ht⟩ := writtenKey_head k.toList
    exact ⟨c, t ++ '.' :: writtenPath path key, hc, by rw [writtenPath_cons, ht]; rfl⟩

/-- Nothing comes next, after spaces, that could go on with a key or a path. -/
structure EndsPath (rest : List Char) : Prop where
  key : EndsKey rest
  path : (skipSpaces rest).head? ≠ some '.'

theorem readDotted_written (path : List String) (key : String) {rest : List Char}
    (hrest : EndsPath rest) :
    ∃ hasLast, readDotted (writtenPath path key ++ rest) =
      ⟨.ok (path, key), hasLast, skipSpaces rest⟩ := by
  induction path with
  | nil =>
    rw [writtenPath_nil, readDotted, readKey_written _ hrest.key]
    dsimp only
    split
    next more heq => exact absurd (congrArg List.head? heq) hrest.path
    next => exact ⟨_, by rw [String.ofList_toList]; rfl⟩
  | cons k path ih =>
    obtain ⟨hasLast, ih⟩ := ih
    obtain ⟨c, t, hc, ht⟩ := writtenPath_head path key
    have hpoint : EndsKey ('.' :: (writtenPath path key ++ rest)) := rfl
    have hspaces : skipSpaces (writtenPath path key ++ rest) = writtenPath path key ++ rest := by
      rw [ht]
      exact skipSpaces_cons (isSpace_of_startsKey hc) _
    -- The reader goes on only while the text gets shorter.
    have hlength : (writtenPath path key ++ rest).length <
        (writtenKey k.toList ++ '.' :: (writtenPath path key ++ rest)).length := by
      simp only [List.length_append, List.length_cons]
      omega
    refine ⟨hasLast, ?_⟩
    rw [writtenPath_cons, List.append_assoc, List.cons_append, readDotted,
      readKey_written _ hpoint]
    dsimp only
    rw [skipSpaces_cons (by decide)]
    split
    next more heq =>
      have hmore : more = writtenPath path key ++ rest := (List.cons.inj heq).2.symm
      rw [hmore, hspaces, if_pos hlength, ih, String.ofList_toList]
      rfl
    next hne => exact absurd rfl (hne _)

/-- A path that is short enough reads back. -/
theorem readPath_written {path : List String} (hpath : path.length < pathLimit) (key : String)
    {rest : List Char} (hrest : EndsPath rest) :
    ∃ hasLast, readPath (writtenPath path key ++ rest) =
      ⟨.ok (path, key), hasLast, skipSpaces rest⟩ := by
  obtain ⟨hasLast, h⟩ := readDotted_written path key hrest
  refine ⟨hasLast, ?_⟩
  rw [readPath, h]
  simp [Except.bind, checkDepth, hpath]

end Classpath.Toml
