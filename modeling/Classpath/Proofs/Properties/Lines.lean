import Classpath.Properties

namespace Classpath

/-! # Blanks and lines

What trimming leaves, how a text falls into lines, and which lines call for another one. -/

/-! ## Trimming -/

namespace Text

/-- A text that neither starts nor ends with a blank. -/
def Trimmed (cs : List Char) : Prop :=
  (∀ c, cs.head? = some c → isBlank c = false) ∧ ∀ c, cs.getLast? = some c → isBlank c = false

instance (cs : List Char) : Decidable (Trimmed cs) :=
  @instDecidableAnd _ _ (Option.decidableForallMem cs.head?) (Option.decidableForallMem cs.getLast?)

theorem trimStart_append_blanks {blanks : List Char} (h : ∀ c ∈ blanks, isBlank c = true)
    (cs : List Char) : trimStart (blanks ++ cs) = trimStart cs := by
  unfold trimStart
  exact List.dropWhile_append_of_pos h

theorem trimStart_blanks {blanks : List Char} (h : ∀ c ∈ blanks, isBlank c = true) :
    trimStart blanks = [] := by
  have hnil := trimStart_append_blanks h []
  rw [List.append_nil] at hnil
  exact hnil

theorem trimStart_of_head {cs : List Char} (h : ∀ c, cs.head? = some c → isBlank c = false) :
    trimStart cs = cs := by
  cases cs with
  | nil => rfl
  | cons c cs =>
    unfold trimStart
    exact List.dropWhile_cons_of_neg (by simp [h c rfl])

theorem trimStart_cons {c : Char} (h : isBlank c = false) (cs : List Char) :
    trimStart (c :: cs) = c :: cs := by
  refine trimStart_of_head fun d hd => ?_
  cases hd
  exact h

theorem trimEnd_append_blanks {blanks : List Char} (h : ∀ c ∈ blanks, isBlank c = true)
    (cs : List Char) : trimEnd (cs ++ blanks) = trimEnd cs := by
  unfold trimEnd
  rw [List.reverse_append, List.dropWhile_append_of_pos]
  intro c hc
  exact h c (List.mem_reverse.1 hc)

theorem trimEnd_of_last {cs : List Char} (h : ∀ c, cs.getLast? = some c → isBlank c = false) :
    trimEnd cs = cs := by
  have hreverse : trimStart cs.reverse = cs.reverse := by
    refine trimStart_of_head fun c hc => h c ?_
    rw [← List.head?_reverse]
    exact hc
  unfold trimStart at hreverse
  unfold trimEnd
  rw [hreverse, List.reverse_reverse]

/-- Trimming takes the blanks around a text away and nothing of the text. -/
theorem trim_between {cs before after : List Char} (h : Trimmed cs)
    (hbefore : ∀ c ∈ before, isBlank c = true) (hafter : ∀ c ∈ after, isBlank c = true) :
    trim (before ++ cs ++ after) = cs := by
  unfold trim
  rw [List.append_assoc, trimStart_append_blanks hbefore]
  cases cs with
  | nil =>
    -- with nothing in between, the start already takes all blanks
    rw [List.nil_append, trimStart_blanks hafter]
    rfl
  | cons c cs =>
    have hhead : trimStart (c :: cs ++ after) = c :: cs ++ after := by
      refine trimStart_of_head fun d hd => h.1 d ?_
      simpa using hd
    rw [hhead, trimEnd_append_blanks hafter, trimEnd_of_last h.2]

/-! ## Lines -/

/-- A line without a carriage return at its end. -/
def chomp : List Char → List Char
  | [] => []
  | ['\r'] => []
  | c :: cs => c :: chomp cs

theorem chomp_cons_cons (c d : Char) (cs : List Char) :
    chomp (c :: d :: cs) = c :: chomp (d :: cs) := by
  simp [chomp]

theorem chomp_append_cons (cs : List Char) {c : Char} (hc : c ≠ '\r') (ds : List Char) :
    chomp (cs ++ c :: ds) = cs ++ c :: chomp ds := by
  induction cs with
  | nil =>
    cases ds with
    | nil => simp [chomp, hc]
    | cons d ds => exact chomp_cons_cons c d ds
  | cons e cs ih =>
    have hne : cs ++ c :: ds ≠ [] := by simp
    obtain ⟨d, rest, hrest⟩ := List.exists_cons_of_ne_nil hne
    rw [List.cons_append, List.cons_append, hrest, chomp_cons_cons, ← hrest, ih]

theorem chomp_append_return (cs : List Char) : chomp (cs ++ ['\r']) = cs := by
  induction cs with
  | nil => rfl
  | cons c cs ih =>
    cases cs with
    | nil => simp [chomp]
    | cons d cs =>
      rw [List.cons_append, List.cons_append, chomp_cons_cons, ← List.cons_append, ih]

theorem chomp_eq_self {cs : List Char} (h : '\r' ∉ cs) : chomp cs = cs := by
  induction cs with
  | nil => rfl
  | cons c cs ih =>
    have hc : c ≠ '\r' := fun hc => h (by simp [hc])
    have hcs : '\r' ∉ cs := fun hcs => h (List.mem_cons_of_mem c hcs)
    cases cs with
    | nil => simp [chomp, hc]
    | cons d cs => rw [chomp_cons_cons, ih hcs]

theorem mem_of_mem_chomp {c : Char} {cs : List Char} (h : c ∈ chomp cs) : c ∈ cs := by
  induction cs with
  | nil => exact h
  | cons d cs ih =>
    cases cs with
    | nil =>
      by_cases hd : d = '\r'
      · simp [chomp, hd] at h
      · simpa [chomp, hd] using h
    | cons e cs =>
      rw [chomp_cons_cons] at h
      rcases List.mem_cons.1 h with rfl | h
      · exact List.mem_cons_self
      · exact List.mem_cons_of_mem d (ih h)

/-- A line feed ends a line. -/
theorem lines_append_newline {line : List Char} (h : '\n' ∉ line) (rest : List Char) :
    lines (line ++ '\n' :: rest) = chomp line :: lines rest := by
  induction line with
  | nil => simp [lines, chomp]
  | cons c cs ih =>
    have hc : c ≠ '\n' := fun hc => h (by simp [hc])
    have hcs : '\n' ∉ cs := fun hcs => h (List.mem_cons_of_mem c hcs)
    cases cs with
    | nil =>
      by_cases hreturn : c = '\r'
      · simp [hreturn, lines, chomp]
      · simp [lines, chomp, hreturn]
    | cons d cs =>
      -- the next character is no line feed either, so no line ends here
      have hd : d ≠ '\n' := fun hd => hcs (by simp [hd])
      have hline := ih hcs
      rw [chomp_cons_cons]
      rw [List.cons_append] at hline ⊢
      rw [List.cons_append, lines]
      · rw [hline]
      · exact hc
      · intro _ _ hnext
        cases hnext
        exact hd rfl

/-- A last line needs no ending. -/
theorem lines_of_not_mem {line : List Char} (h : '\n' ∉ line) (hne : line ≠ []) :
    lines line = [line] := by
  induction line with
  | nil => exact absurd rfl hne
  | cons c cs ih =>
    have hc : c ≠ '\n' := fun hc => h (by simp [hc])
    have hcs : '\n' ∉ cs := fun hcs => h (List.mem_cons_of_mem c hcs)
    rw [lines]
    · cases cs with
      | nil => rfl
      | cons d cs => rw [ih hcs (by simp)]
    · exact hc
    · intro rest _ hrest
      exact hcs (by simp [hrest])

end Text

/-! ## Continued lines -/

namespace Properties

theorem continues_snoc (cs : List Char) (c : Char) :
    continues (cs ++ [c]) = (decide (c = '\\') && !continues cs) := by
  unfold continues
  rw [List.reverse_append, List.reverse_singleton, List.singleton_append, List.takeWhile_cons]
  by_cases hc : c = '\\'
  · simp only [hc, decide_true, if_true, List.length_cons, Bool.true_and]
    generalize (cs.reverse.takeWhile fun x => x = '\\').length = n
    by_cases hn : n % 2 = 1
    · have hnext : (n + 1) % 2 ≠ 1 := by omega
      simp [hn, hnext]
    · have hnext : (n + 1) % 2 = 1 := by omega
      simp [hn, hnext]
  · simp [hc]

/-- A text without backslashes ends no line in a way that goes on. -/
theorem continues_append_plain {cs ds : List Char} (hcs : continues cs = false)
    (hds : '\\' ∉ ds) : continues (cs ++ ds) = false := by
  induction ds generalizing cs with
  | nil =>
    rw [List.append_nil]
    exact hcs
  | cons d ds ih =>
    have hd : d ≠ '\\' := fun hd => hds (by simp [hd])
    have hsnoc : continues (cs ++ [d]) = false := by
      rw [continues_snoc]
      simp [hd]
    have hrest := ih hsnoc fun h => hds (List.mem_cons_of_mem d h)
    rw [List.append_assoc] at hrest
    exact hrest

end Properties

end Classpath
