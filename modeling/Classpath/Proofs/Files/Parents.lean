import Classpath.Proofs.Files.Names
import Classpath.Proofs.Files.Replace
import Mathlib.Data.List.Chain

namespace Classpath

/-! # Above a path

Whatever its pieces are, a path is reached through the paths above it: it goes on behind a slash,
and what stands before the slash has to lead to a directory. So where a directory cannot be made,
nothing that would stand in it is reached.

1. **Spelling**: a path, and the sibling of a path, go on behind the path above it.
2. **Directories**: where a path leads somewhere, each path above it leads to a directory.
3. **Failures**: what was not made is not there, and neither is the sibling in it. -/

namespace Path

/-! ## Spelling -/

/-- A path goes on behind a slash, and another one is what stands before the slash, with it or
without it. -/
def IsAbove (above p : Path) : Prop :=
  above ≠ "" ∧
    ∃ before rest, p = before ++ "/" ++ rest ∧ (above = before ∨ above = before ++ "/")

theorem pieces_cut (before rest : Path) :
    Path.pieces (before ++ "/" ++ rest) = before.pieces ++ rest.pieces :=
  Text.split_cut rfl before rest

theorem IsAbove.append {above p : Path} (h : IsAbove above p) (more : String) :
    IsAbove above (p ++ more) := by
  obtain ⟨hne, before, rest, rfl, habove⟩ := h
  exact ⟨hne, before, rest ++ more, String.append_assoc, habove⟩

/-- A path that starts with a slash goes on behind it. -/
theorem isAbove_root {p : Path} (h : p.isAbsolute = true) : IsAbove "/" p := by
  obtain ⟨cs, hcs⟩ := List.head?_eq_some_iff.1 (of_decide_eq_true h)
  refine ⟨by decide, "", String.ofList cs, ?_, Or.inr rfl⟩
  rw [← String.toList_inj, hcs]
  simp

theorem isAbove_of_parent? {p above : Path} (h : p.parent? = some above) (hne : above ≠ "") :
    IsAbove above p := by
  rw [parent?] at h
  split at h
  next => cases h
  next last before hending =>
    split at h
    next =>
      -- nothing is above the only name but the root
      cases habsolute : p.isAbsolute with
      | true =>
        rw [habsolute] at h
        cases h
        exact isAbove_root habsolute
      | false =>
        rw [habsolute] at h
        exact absurd (Option.some.inj h).symm hne
    next named hnamed =>
      cases h
      obtain ⟨gap, hgap⟩ := namedEnd_suffix before
      obtain ⟨slashes, hslashes⟩ := namedEnd_suffix p.pieces.reverse
      have hpieces : p.pieces =
          (namedEnd before).reverse ++ (gap.reverse ++ last :: slashes.reverse) := by
        have hbefore : before.reverse = (namedEnd before).reverse ++ gap.reverse := by
          rw [← List.reverse_append, hgap]
        rw [← List.reverse_reverse p.pieces, ← hslashes, hending, List.reverse_append,
          List.reverse_cons, hbefore]
        simp
      have hp : p = Text.join "/" p.pieces := (Text.join_split_by rfl p).symm
      rw [hpieces, Text.join_append (by simpa using hnamed) (by simp), ← String.append_assoc] at hp
      exact ⟨hne, _, _, hp, Or.inl rfl⟩

/-- A piece that is seen from a base goes on behind it. -/
theorem exists_join {base piece : Path} (hbase : base ≠ "") (hpiece : '/' ∉ piece.toList) :
    ∃ before, base.join piece = before ++ "/" ++ piece ∧
      (base = before ∨ base = before ++ "/") := by
  have hrelative := isAbsolute_of_not_mem hpiece
  rw [join, if_neg (by simp [hrelative, hbase])]
  split
  next hslash =>
    obtain ⟨cs, hcs⟩ := List.getLast?_eq_some_iff.1 hslash
    have hend : base = String.ofList cs ++ "/" := by
      rw [← String.toList_inj, hcs]
      simp
    exact ⟨String.ofList cs, by rw [← hend], Or.inr hend⟩
  next => exact ⟨base, rfl, Or.inl rfl⟩

theorem isAbove_join {base piece : Path} (hbase : base ≠ "") (hpiece : '/' ∉ piece.toList) :
    IsAbove base (base.join piece) := by
  obtain ⟨before, hjoin, hbefore⟩ := exists_join hbase hpiece
  exact ⟨hbase, before, piece, hjoin, hbefore⟩

/-- Seen from a base, a piece is the last one. -/
theorem exists_pieces_join (base : Path) {piece : Path} (hpiece : '/' ∉ piece.toList) :
    ∃ before, (base.join piece).pieces = before ++ [piece] := by
  have hone : piece.pieces = [piece] := by
    simp [pieces, Text.split, Text.segments_of_not_mem hpiece]
  by_cases hbase : base = ""
  · exact ⟨[], by rw [join, if_pos (Or.inr hbase), hone, List.nil_append]⟩
  · obtain ⟨before, hjoin, -⟩ := exists_join hbase hpiece
    exact ⟨before.pieces, by rw [hjoin, pieces_cut, hone]⟩

/-- A path does not end in the name of its sibling, which is longer than its own. -/
theorem pieces_ne_siblingName (p : Path) (before : List String) :
    p.pieces ≠ before ++ [p.siblingName] := by
  intro hpieces
  have hnamed : namedEnd p.pieces.reverse = p.siblingName :: before.reverse := by
    have hempty : p.siblingName ≠ "" := p.siblingName_ne (by decide)
    have hpoint : p.siblingName ≠ "." := p.siblingName_ne (by decide)
    rw [hpieces, List.reverse_append]
    cases before.reverse with
    | nil => simp [namedEnd, hempty]
    | cons next others => simp [namedEnd, hempty, hpoint]
  have hname : p.fileName? = some p.siblingName := by
    have hpoint : p.siblingName ≠ "." := p.siblingName_ne (by decide)
    have hpoints : p.siblingName ≠ ".." := p.siblingName_ne (by decide)
    simp [fileName?, hnamed, hpoint, hpoints]
  have hlonger : p.siblingName = p.siblingName ++ ".tmp" := by
    conv_lhs => rw [siblingName, hname, Option.getD_some]
  have hlength := congrArg String.length hlonger
  rw [String.length_append] at hlength
  have hfour : ".tmp".length = 4 := rfl
  omega

theorem exists_pieces_sibling (p : Path) :
    ∃ before, (FileTree.sibling p).pieces = before ++ [p.siblingName] := by
  rw [FileTree.sibling, withFileName]
  split
  next => exact exists_pieces_join p p.not_mem_siblingName
  next => exact exists_pieces_join _ p.not_mem_siblingName

/-- The path above a path is above its sibling, too. -/
theorem isAbove_sibling {p above : Path} (h : p.parent? = some above) (hne : above ≠ "") :
    IsAbove above (FileTree.sibling p) := by
  have hp : p ≠ "" := by
    rintro rfl
    cases h
  rw [FileTree.sibling, withFileName]
  split
  next =>
    -- without a last name the sibling stands in what the path itself leads to
    obtain ⟨more, hjoin⟩ : ∃ more, p.join p.siblingName = p ++ more := by
      obtain ⟨before, hjoin, hbefore | hbefore⟩ := exists_join hp p.not_mem_siblingName
      · exact ⟨"/" ++ p.siblingName, by rw [hjoin, ← hbefore, String.append_assoc]⟩
      · exact ⟨p.siblingName, by rw [hjoin, ← hbefore]⟩
    have hbelow := (isAbove_of_parent? h hne).append more
    rw [← hjoin] at hbelow
    exact hbelow
  next =>
    rw [h]
    exact isAbove_join hne p.not_mem_siblingName

/-- The paths above a path, each above the one that stands before it. -/
theorem isChain_parents (limit : Nat) {p : Path} (hp : p ≠ "") :
    (p :: (parents limit p).filter (· ≠ "")).IsChain fun q above => IsAbove above q := by
  induction limit generalizing p with
  | zero => simp [parents]
  | succ limit ih =>
    cases habove : p.parent? with
    | none => simp [parents, habove]
    | some above =>
      rw [parents_of_parent habove]
      by_cases hempty : above = ""
      · simp [hempty, parents_empty]
      · rw [List.filter_cons_of_pos (by simpa using hempty), List.isChain_cons_cons]
        exact ⟨isAbove_of_parent? habove hempty, ih hempty⟩

end Path

namespace FileTree

variable {t t' : FileTree} {p : Path}

/-! ## Directories -/

theorem start_of_append {above : Path} {rest : String} (hne : above ≠ "") {l : Location}
    (h : t.start (above ++ rest) = .ok l) : t.start above = .ok l := by
  have habsolute : Path.isAbsolute (above ++ rest) = above.isAbsolute := by
    obtain ⟨c, cs, hchars⟩ := List.exists_cons_of_ne_nil (l := above.toList) (by simpa using hne)
    simp [Path.isAbsolute, hchars]
  rw [start, habsolute] at h
  rw [start]
  split at h
  next => cases h
  next hnul =>
    split at h
    next => cases h
    next =>
      split at h
      next => cases h
      next hsize =>
        rw [String.toList_append, List.mem_append, not_or] at hnul
        rw [String.utf8ByteSize_append] at hsize
        have hsmall : ¬ pathLimit ≤ above.utf8ByteSize := by omega
        rw [if_neg hnul.1, if_neg hne, if_neg hsmall]
        exact h

/-- A walk that goes on starts its last part from a directory. -/
theorem entryAt_of_walk {l l' : Location} {pieces : List String} (hne : pieces ≠ [])
    (h : t.walk l pieces = .ok l') : t.entryAt l = some .directory := by
  cases pieces with
  | nil => exact absurd rfl hne
  | cons piece pieces =>
    rw [walk] at h
    split at h
    next => cases h
    next next hstep => exact step_eq_ok hstep

/-- Where a path leads somewhere, a path above it leads to a directory. -/
theorem find_of_isAbove {above : Path} (habove : above.IsAbove p) {l : Location}
    (h : t.locate p = .ok l) : t.find above = .ok .directory := by
  obtain ⟨hne, before, rest, rfl, hbefore⟩ := habove
  obtain ⟨start, hstart, hwalk⟩ := locate_eq_ok_iff.1 h
  rw [Path.pieces_cut] at hwalk
  obtain ⟨here, hhere, hrest⟩ := walk_append_eq_ok_iff.1 hwalk
  have hdirectory := entryAt_of_walk rest.pieces_ne_nil hrest
  refine find_eq_ok_iff.2 ⟨here, locate_eq_ok_iff.2 ⟨start, ?_, ?_⟩, hdirectory⟩
  · rcases hbefore with rfl | rfl
    · exact start_of_append hne (by rwa [← String.append_assoc])
    · exact start_of_append hne hstart
  · rcases hbefore with rfl | rfl
    · exact hhere
    · -- the slash at the end leads nowhere else
      have hslash : Path.pieces (before ++ "/") = before.pieces ++ [""] := by
        rw [← String.append_empty (s := before ++ "/"), Path.pieces_cut]
        rfl
      rw [hslash]
      refine walk_concat_eq_ok_iff.2 ⟨here, hhere, ?_⟩
      simp [step, hdirectory]

theorem isDirectory_iff : t.isDirectory p = true ↔ t.find p = .ok .directory := by
  rw [isDirectory]
  split
  next hfind => simp [hfind]
  next hother => simpa using hother

/-! ## Failures -/

/-- A refusal stands only where there is no directory already. -/
theorem find_of_refusal {u : FileTree} {fault fault' : FileFault}
    (h : (u, if u.isDirectory p then .ok () else .error fault) =
      (t', (.error fault' : Except FileFault Unit))) : t'.find p ≠ .ok .directory := by
  split at h
  next => cases h
  next hother =>
    cases h
    exact fun hfind => hother (isDirectory_iff.2 hfind)

/-- A path cannot be made a directory if the paths above it cannot, or if it is refused itself. -/
theorem makeFirst_eq_error {above : List Path} {fault : FileFault}
    (h : t.makeFirst (p :: above) = (t', .error fault)) :
    (∃ fault', t.makeFirst above = (t', .error fault')) ∨ t'.find p ≠ .ok .directory := by
  rw [makeFirst] at h
  split at h
  next => cases h
  next =>
    split at h
    next made fault' hmade =>
      cases h
      exact Or.inl ⟨_, hmade⟩
    next =>
      split at h
      next => cases h
      next => exact Or.inr (find_of_refusal h)
  next => exact Or.inr (find_of_refusal h)

/-- If no directory could be made for a path, there is none. -/
theorem find_of_makeFirst {above : List Path} {fault : FileFault}
    (hchain : (p :: above).IsChain fun q above => Path.IsAbove above q)
    (h : t.makeFirst (p :: above) = (t', .error fault)) : t'.find p ≠ .ok .directory := by
  induction above generalizing p fault with
  | nil =>
    rcases makeFirst_eq_error h with ⟨fault', hnone⟩ | hrefused
    · cases hnone
    · exact hrefused
  | cons next above ih =>
    rcases List.isChain_cons_cons.1 hchain with ⟨habove, hrest⟩
    rcases makeFirst_eq_error h with ⟨fault', hmade⟩ | hrefused
    · -- what leads to a directory is reached through the path above it
      intro hfind
      rcases find_eq_ok_iff.1 hfind with ⟨l, hl, -⟩
      exact ih hrest hmade (find_of_isAbove habove hl)
    · exact hrefused

theorem find_of_ensureDirectory {failure : Failure} (hne : p ≠ "")
    (h : t.ensureDirectory p = (t', .error failure)) : t'.find p ≠ .ok .directory := by
  rw [ensureDirectory] at h
  split at h
  next =>
    split at h
    next => cases h
    next hother =>
      cases h
      exact fun hfind => hother (isDirectory_iff.2 hfind)
  next =>
    split at h
    next => cases h
    next made fault hmade =>
      cases h
      rw [makeDirectories, Path.ancestors, List.filter_cons_of_pos (by simpa using hne)] at hmade
      exact find_of_makeFirst (Path.isChain_parents _ hne) hmade

/-- Where there can be no directory for a file, its sibling leads nowhere. -/
theorem locate_of_ensureParent {failure : Failure}
    (h : t.ensureParent p = (t', .error failure)) (l : Location) :
    t'.locate (sibling p) ≠ .ok l := by
  intro hl
  rw [ensureParent] at h
  split at h
  next => cases h
  next above habove =>
    split at h
    next => cases h
    next hne =>
      exact find_of_ensureDirectory hne h (find_of_isAbove (Path.isAbove_sibling habove hne) hl)

end FileTree

end Classpath
