import Classpath.Files.Replace
import Classpath.Proofs.Tokens
import Mathlib.Data.List.DropRight

namespace Classpath

/-! # Paths of names

The paths under which files are kept are relative and made of names: no piece is one or two points.
Such a path is its names and no more, however many slashes stand between them and behind them.

1. **Pieces**: joining names with slashes gives a path that is made of them.
2. **Parts**: a path of names falls into the path above it and its last name.
3. **Siblings**: the sibling of a path of names is one as well, with the same names above it. -/

namespace Path

/-- A relative path that is made of names: it starts with one, and no piece is a point or two. -/
def Named (p : Path) : Prop :=
  p.pieces.head? ≠ some "" ∧ ∀ piece ∈ p.pieces, piece ≠ "." ∧ piece ≠ ".."

instance (p : Path) : Decidable p.Named :=
  inferInstanceAs (Decidable (_ ∧ _))

/-- The names of a path: its pieces without the empty ones. -/
def names (p : Path) : List String :=
  p.pieces.filter (· ≠ "")

/-! ## Pieces -/

theorem not_mem_of_mem_pieces {p : Path} {piece : String} (h : piece ∈ p.pieces) :
    '/' ∉ piece.toList :=
  Text.not_mem_of_mem_split h

theorem pieces_ne_nil (p : Path) : p.pieces ≠ [] := by
  have hne := Text.segments_ne_nil '/' p.toList
  simpa [pieces, Text.split] using hne

theorem isAbsolute_of_named {p : Path} (h : p.Named) : p.isAbsolute = false := by
  unfold isAbsolute
  rw [decide_eq_false_iff_not]
  intro habsolute
  obtain ⟨cs, hcs⟩ := List.head?_eq_some_iff.1 habsolute
  refine h.1 ?_
  simp [pieces, Text.split, hcs, Text.segments]

/-- Pieces that can make up a path of names. -/
structure Nameable (pieces : List String) : Prop where
  first : pieces.head? ≠ some ""
  point : ∀ piece ∈ pieces, piece ≠ "." ∧ piece ≠ ".."
  free : ∀ piece ∈ pieces, '/' ∉ piece.toList

theorem pieces_join {pieces : List String} (h : Nameable pieces) (hne : pieces ≠ []) :
    Path.pieces (Text.join "/" pieces) = pieces :=
  Text.split_join_by rfl hne h.free

theorem named_join {pieces : List String} (h : Nameable pieces) (hne : pieces ≠ []) :
    Named (Text.join "/" pieces) := by
  rw [Named, pieces_join h hne]
  exact ⟨h.first, h.point⟩

theorem join_ne_empty {pieces : List String} (h : Nameable pieces) (hne : pieces ≠ []) :
    Text.join "/" pieces ≠ "" := by
  intro hempty
  have hpieces := pieces_join h hne
  rw [hempty] at hpieces
  refine h.first ?_
  rw [← hpieces]
  rfl

/-- Joined pieces end as the last one does. -/
theorem getLast?_join {before : List String} {last : String} (hlast : last ≠ "") :
    (Text.join "/" (before ++ [last])).toList.getLast? = last.toList.getLast? := by
  have hchars : last.toList ≠ [] := by simpa using hlast
  have hone : Text.join "/" [last] = last := by simp [Text.join, Text.joined]
  by_cases hbefore : before = []
  · rw [hbefore, List.nil_append, hone]
  · rw [Text.join_append hbefore (by simp), hone, String.toList_append, String.toList_append,
      ← List.append_assoc, List.getLast?_append, List.getLast?_eq_some_getLast hchars]
    rfl

theorem isAbsolute_of_not_mem {piece : Path} (h : '/' ∉ piece.toList) :
    piece.isAbsolute = false := by
  unfold isAbsolute
  rw [decide_eq_false_iff_not]
  exact fun hslash => h (List.mem_of_mem_head? hslash)

/-- A text without slashes is seen from a base as one more piece. -/
theorem join_piece {pieces : List String} (h : Nameable pieces) (hlast : pieces.getLast? ≠ some "")
    {piece : String} (hpiece : '/' ∉ piece.toList) :
    Path.join (Text.join "/" pieces) piece = Text.join "/" (pieces ++ [piece]) := by
  have hrelative := isAbsolute_of_not_mem hpiece
  have hone : Text.join "/" [piece] = piece := by
    simp [Text.join, Text.joined]
  rcases List.eq_nil_or_concat' pieces with rfl | ⟨before, last, rfl⟩
  · have hnothing : Text.join "/" [] = "" := rfl
    rw [hnothing, Path.join, if_pos (Or.inr rfl), List.nil_append, hone]
  · have hne : before ++ [last] ≠ [] := by simp
    have hbase := join_ne_empty h hne
    have hend : (Text.join "/" (before ++ [last])).toList.getLast? ≠ some '/' := by
      rw [getLast?_join (by simpa using hlast)]
      exact fun hslash => h.free last (by simp) (List.mem_of_getLast? hslash)
    rw [Path.join, if_neg (by simp [hrelative, hbase]), if_neg hend,
      Text.join_append hne (by simp), hone, ← String.toList_inj]
    simp [toString]

/-! ## Parts -/

/-- Without points, only empty pieces name nothing. -/
theorem namedEnd_eq {pieces : List String} (h : ∀ piece ∈ pieces, piece ≠ ".") :
    namedEnd pieces = pieces.dropWhile (· = "") := by
  induction pieces with
  | nil => rfl
  | cons last before ih =>
    have hlast : last ≠ "." := h last List.mem_cons_self
    have hbefore := ih fun piece hpiece => h piece (List.mem_cons_of_mem last hpiece)
    cases before with
    | nil => by_cases hempty : last = "" <;> simp [namedEnd, hempty]
    | cons next others =>
      rw [namedEnd, List.dropWhile_cons, hbefore]
      · simp [hlast]
      · simp

theorem namedEnd_suffix (pieces : List String) : namedEnd pieces <:+ pieces := by
  induction pieces with
  | nil => exact List.suffix_refl _
  | cons last before ih =>
    cases before with
    | nil =>
      rw [namedEnd]
      split
      · exact List.nil_suffix
      · exact List.suffix_refl _
    | cons next others =>
      rw [namedEnd]
      · split
        · exact ih.trans (List.suffix_cons _ _)
        · exact List.suffix_refl _
      · simp

theorem filter_dropWhile_empty (pieces : List String) :
    (pieces.dropWhile (· = "")).filter (· ≠ "") = pieces.filter (· ≠ "") := by
  induction pieces with
  | nil => rfl
  | cons piece pieces ih =>
    rw [List.dropWhile_cons]
    by_cases hempty : piece = ""
    · simpa [hempty] using ih
    · simp [hempty]

/-- A path of names falls into the pieces above its last name and this name. -/
structure Parts (p : Path) (above : List String) (last : String) : Prop where
  nameable : Nameable (above ++ [last])
  named : above.getLast? ≠ some ""
  last_ne : last ≠ ""
  names : p.names = above.filter (· ≠ "") ++ [last]
  parent : p.parent? = some (Text.join "/" above)
  fileName : p.fileName? = some last

/-- What is left behind the empty pieces does not start with one. -/
theorem head?_dropWhile_empty (pieces : List String) :
    (pieces.dropWhile (· = "")).head? ≠ some "" := by
  intro hhead
  have hnot := List.head?_dropWhile_not (fun piece => decide (piece = "")) pieces
  rw [hhead] at hnot
  simp at hnot

/-- The empty pieces behind the last name name nothing. -/
theorem names_eq (p : Path) :
    p.names = (p.pieces.reverse.dropWhile (· = "")).reverse.filter (· ≠ "") := by
  rw [List.filter_reverse, filter_dropWhile_empty, List.filter_reverse, List.reverse_reverse, names]

theorem mem_pieces_of_mem_ending {p : Path} {piece : String}
    (h : piece ∈ p.pieces.reverse.dropWhile (· = "")) : piece ∈ p.pieces :=
  List.mem_reverse.1 ((List.dropWhile_sublist _).subset h)

/-- Without slashes at the end nothing is dropped. -/
theorem ending_eq {p : Path} (h : p.pieces.getLast? ≠ some "") :
    p.pieces.reverse.dropWhile (· = "") = p.pieces.reverse := by
  rw [← List.head?_reverse] at h
  cases hreverse : p.pieces.reverse with
  | nil => rfl
  | cons last before =>
    have hlast : last ≠ "" := by simpa [hreverse] using h
    simp [hlast]

/-- There is a last name, since the first piece is a name. -/
theorem Named.ending_ne_nil {p : Path} (h : p.Named) :
    p.pieces.reverse.dropWhile (· = "") ≠ [] := by
  intro hending
  obtain ⟨first, others, hpieces⟩ := List.exists_cons_of_ne_nil p.pieces_ne_nil
  have hempty : first = "" := by
    have hall := List.dropWhile_eq_nil_iff.1 hending first (by simp [hpieces])
    simpa using hall
  exact h.1 (by rw [hpieces, hempty]; rfl)

section Ending

variable {p : Path} {last : String} {before : List String}

/-- The last name that stands in a path, and what stands before it, are pieces of the path. -/
theorem mem_pieces_of_ending (hending : p.pieces.reverse.dropWhile (· = "") = last :: before)
    {piece : String} (h : piece ∈ (before.dropWhile (· = "")).reverse ++ [last]) :
    piece ∈ p.pieces := by
  refine mem_pieces_of_mem_ending ?_
  rw [hending]
  rcases List.mem_append.1 h with habove | hlast
  · have hbefore := (List.dropWhile_sublist (· = "")).subset (List.mem_reverse.1 habove)
    exact List.mem_cons_of_mem last hbefore
  · rw [List.mem_singleton.1 hlast]
    exact List.mem_cons_self

theorem last_ne_of_ending (hending : p.pieces.reverse.dropWhile (· = "") = last :: before) :
    last ≠ "" := by
  have hhead := head?_dropWhile_empty p.pieces.reverse
  rw [hending] at hhead
  simpa using hhead

theorem names_of_ending (hending : p.pieces.reverse.dropWhile (· = "") = last :: before) :
    p.names = (before.dropWhile (· = "")).reverse.filter (· ≠ "") ++ [last] := by
  have hlast := last_ne_of_ending hending
  rw [names_eq, hending, List.reverse_cons, List.filter_append, List.filter_reverse,
    List.filter_reverse, filter_dropWhile_empty]
  simp [hlast]

theorem parent?_of_ending (h : p.Named)
    (hending : p.pieces.reverse.dropWhile (· = "") = last :: before) :
    p.parent? = some (Text.join "/" (before.dropWhile (· = "")).reverse) := by
  have hpoint : ∀ piece ∈ p.pieces.reverse, piece ≠ "." := fun piece hpiece =>
    (h.2 piece (List.mem_reverse.1 hpiece)).1
  have hbefore : ∀ piece ∈ before, piece ≠ "." := by
    intro piece hpiece
    refine (h.2 piece (mem_pieces_of_mem_ending ?_)).1
    rw [hending]
    exact List.mem_cons_of_mem last hpiece
  rw [parent?, namedEnd_eq hpoint, hending]
  dsimp only
  rw [namedEnd_eq hbefore, isAbsolute_of_named h]
  cases before.dropWhile (· = "") with
  | nil => rfl
  | cons next others => rfl

theorem fileName?_of_ending (h : p.Named)
    (hending : p.pieces.reverse.dropWhile (· = "") = last :: before) : p.fileName? = some last := by
  have hpoint : ∀ piece ∈ p.pieces.reverse, piece ≠ "." := fun piece hpiece =>
    (h.2 piece (List.mem_reverse.1 hpiece)).1
  obtain ⟨hone, htwo⟩ := h.2 last (mem_pieces_of_ending hending (by simp))
  rw [fileName?, namedEnd_eq hpoint, hending]
  simp [hone, htwo]

theorem nameable_of_ending (h : p.Named)
    (hending : p.pieces.reverse.dropWhile (· = "") = last :: before) :
    Nameable ((before.dropWhile (· = "")).reverse ++ [last]) := by
  refine ⟨?_, fun piece hpiece => h.2 piece (mem_pieces_of_ending hending hpiece),
    fun piece hpiece => not_mem_of_mem_pieces (mem_pieces_of_ending hending hpiece)⟩
  obtain ⟨slashes, hslashes⟩ := List.dropWhile_suffix (· = "") (l := p.pieces.reverse)
  obtain ⟨gap, hgap⟩ := List.dropWhile_suffix (· = "") (l := before)
  have hpieces : p.pieces =
      (before.dropWhile (· = "")).reverse ++ (gap.reverse ++ last :: slashes.reverse) := by
    rw [← List.reverse_inj, ← hslashes, hending]
    simp [hgap]
  -- with nothing above it, the last name is the first
  cases habove : (before.dropWhile (· = "")).reverse with
  | nil =>
    have hlast := last_ne_of_ending hending
    simpa using hlast
  | cons first others =>
    have hfirst := h.1
    rw [hpieces, habove] at hfirst
    exact hfirst

end Ending

theorem Named.exists_parts {p : Path} (h : p.Named) : ∃ above last, Parts p above last := by
  cases hending : p.pieces.reverse.dropWhile (· = "") with
  | nil => exact absurd hending h.ending_ne_nil
  | cons last before =>
    refine ⟨(before.dropWhile (· = "")).reverse, last, nameable_of_ending h hending, ?_,
      last_ne_of_ending hending, names_of_ending hending, parent?_of_ending h hending,
      fileName?_of_ending h hending⟩
    rw [List.getLast?_reverse]
    exact head?_dropWhile_empty before

section Parts

variable {p : Path} {above : List String} {last : String}

theorem Parts.nameable_above (h : Parts p above last) : Nameable above := by
  refine ⟨?_, fun piece hpiece => h.nameable.point piece (List.mem_append_left _ hpiece),
    fun piece hpiece => h.nameable.free piece (List.mem_append_left _ hpiece)⟩
  cases above with
  | nil => simp
  | cons first others => exact h.nameable.first

/-- The path above a path of names is empty or one of names itself, without the last one. -/
theorem Parts.above_cases (h : Parts p above last) :
    Text.join "/" above = "" ∨
      Named (Text.join "/" above) ∧ p.names = Path.names (Text.join "/" above) ++ [last] := by
  by_cases hnone : above = []
  · rw [hnone]
    exact Or.inl rfl
  · refine Or.inr ⟨named_join h.nameable_above hnone, ?_⟩
    rw [h.names, Path.names, pieces_join h.nameable_above hnone]

end Parts

/-! ## Siblings -/

/-- The last name of the sibling. -/
def siblingName (p : Path) : String :=
  p.fileName?.getD "" ++ ".tmp"

theorem not_mem_siblingName (p : Path) : '/' ∉ p.siblingName.toList := by
  have hname : '/' ∉ (p.fileName?.getD "").toList := by
    rw [fileName?]
    split
    next => simp
    next name before hending =>
      split
      · simp
      · have hmem : name ∈ p.pieces.reverse :=
          (namedEnd_suffix p.pieces.reverse).subset (hending ▸ List.mem_cons_self)
        exact Text.not_mem_of_mem_split (List.mem_reverse.1 hmem)
  rw [siblingName, String.toList_append, List.mem_append, not_or]
  exact ⟨hname, by decide⟩

/-- The name of a sibling is longer than any name that stands for a place already. -/
theorem siblingName_ne (p : Path) {short : String} (h : short.length < 4) :
    p.siblingName ≠ short := by
  rintro rfl
  have hlength : p.siblingName.length = (p.fileName?.getD "").length + 4 := String.length_append ..
  omega

section Parts

variable {p : Path} {above : List String} {last : String}

theorem Parts.siblingName_eq (h : Parts p above last) : p.siblingName = last ++ ".tmp" := by
  rw [siblingName, h.fileName, Option.getD_some]

theorem Parts.nameable_sibling (h : Parts p above last) : Nameable (above ++ [last ++ ".tmp"]) := by
  rw [← h.siblingName_eq]
  have hname : p.siblingName ≠ "" := p.siblingName_ne (by decide)
  refine ⟨?_, ?_, ?_⟩
  · cases above with
    | nil => simpa using hname
    | cons first others => exact h.nameable.first
  · intro piece hpiece
    rcases List.mem_append.1 hpiece with hpiece | hpiece
    · exact h.nameable_above.point piece hpiece
    · rw [List.mem_singleton.1 hpiece]
      exact ⟨p.siblingName_ne (by decide), p.siblingName_ne (by decide)⟩
  · intro piece hpiece
    rcases List.mem_append.1 hpiece with hpiece | hpiece
    · exact h.nameable_above.free piece hpiece
    · rw [List.mem_singleton.1 hpiece]
      exact p.not_mem_siblingName

theorem Parts.sibling_eq (h : Parts p above last) :
    FileTree.sibling p = Text.join "/" (above ++ [last ++ ".tmp"]) := by
  have hfree : '/' ∉ (last ++ ".tmp").toList := h.nameable_sibling.free _ (by simp)
  rw [FileTree.sibling, withFileName, h.fileName, h.parent]
  exact join_piece h.nameable_above h.named hfree

theorem Parts.named_sibling (h : Parts p above last) : (FileTree.sibling p).Named := by
  rw [h.sibling_eq]
  exact named_join h.nameable_sibling (by simp)

theorem Parts.pieces_sibling (h : Parts p above last) :
    (FileTree.sibling p).pieces = above ++ [last ++ ".tmp"] := by
  rw [h.sibling_eq]
  exact pieces_join h.nameable_sibling (by simp)

/-- The sibling has another name in the same place. -/
theorem Parts.names_sibling (h : Parts p above last) :
    (FileTree.sibling p).names = p.names.dropLast ++ [last ++ ".tmp"] := by
  have hname : last ++ ".tmp" ≠ "" := by simp
  rw [h.names, List.dropLast_concat, Path.names, h.pieces_sibling, List.filter_append]
  simp [hname]

end Parts

/-- Nothing is above the empty path. -/
theorem parents_empty (limit : Nat) : parents limit "" = [] := by
  cases limit <;> rfl

theorem parents_of_parent {p above : Path} (h : p.parent? = some above) (limit : Nat) :
    parents (limit + 1) p = above :: parents limit above := by
  simp [parents, h]

/-- All paths above a path of names are made of its first names, or empty. -/
theorem named_of_mem_parents {p : Path} (h : p.Named) (limit : Nat) :
    ∀ q ∈ parents limit p, q ≠ "" → q.Named ∧ q.names <+: p.names ∧ q.names ≠ p.names := by
  induction limit generalizing p with
  | zero =>
    intro q hq
    simp [parents] at hq
  | succ limit ih =>
    intro q hq hne
    obtain ⟨above, last, hparts⟩ := h.exists_parts
    rw [parents_of_parent hparts.parent] at hq
    rcases hparts.above_cases with hempty | ⟨hnamed, hnames⟩
    · rw [hempty] at hq
      rcases List.mem_cons.1 hq with hq | hq
      · exact absurd hq hne
      · rw [parents_empty] at hq
        exact absurd hq List.not_mem_nil
    · have hshorter : names (Text.join "/" above) <+: p.names := by
        rw [hnames]
        exact List.prefix_append _ _
      rcases List.mem_cons.1 hq with rfl | hq
      · refine ⟨hnamed, hshorter, ?_⟩
        rw [hnames]
        simp
      · obtain ⟨hqnamed, hqnames, hqne⟩ := ih hnamed q hq hne
        refine ⟨hqnamed, hqnames.trans hshorter, fun hsame => ?_⟩
        rw [hsame] at hqnames
        have hlength := hqnames.length_le
        rw [hnames, List.length_append, List.length_singleton] at hlength
        omega

/-- So are the paths from the one above it on. -/
theorem named_of_mem_ancestors {p above : Path} (h : p.Named) (habove : p.parent? = some above) :
    ∀ q ∈ above.ancestors, q ≠ "" → q.Named ∧ q.names <+: p.names ∧ q.names ≠ p.names := by
  have hancestors : above.ancestors = parents (above.length + 1) p := by
    rw [parents_of_parent habove, ancestors]
  rw [hancestors]
  exact named_of_mem_parents h _

end Path

end Classpath
