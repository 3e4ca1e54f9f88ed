import Classpath.Files.Replace
import Classpath.Proofs.Outcomes

namespace Classpath.FileTree

/-! # Files that were replaced

A file that was replaced holds the new content under the path by which it was replaced. The path is
walked once for the file and once for the sibling, and none of the changes in between takes a
directory away, so each walk leads to the same place as before.

1. **Entries**: what putting and dropping do to the entry at each location.
2. **Walks**: in a tree with the same directories a path leads to the same place.
3. **Files**: what writing, moving and replacing leave at a path. -/

variable {t t' : FileTree}

/-! ## Entries -/

theorem entryAt_put {l : Location} (h : t.IsFree l) (e : Entry) (l' : Location) :
    (t.put l e).entryAt l' = if l = l' then some e else t.entryAt l' := by
  rw [put, dif_pos h]
  exact entryIn_insert t.entries e l' h.1

theorem entryAt_drop {l : Location} {content : ByteArray}
    (h : t.entryAt l = some (.file content)) (l' : Location) :
    (t.drop l).entryAt l' = if l = l' then none else t.entryAt l' := by
  rw [drop]
  split
  next => exact entryIn_erase t.entries l' (ne_nil_of_file h)
  next hother => exact absurd h (hother content)

/-- A tree with all directories of another one, and the same current directory. -/
structure Keeps (t t' : FileTree) : Prop where
  current : t'.current = t.current
  directories : ∀ l, t.entryAt l = some .directory → t'.entryAt l = some .directory

theorem Keeps.trans {t'' : FileTree} (h : t.Keeps t') (h' : t'.Keeps t'') : t.Keeps t'' :=
  ⟨h'.current.trans h.current, fun l hl => h'.directories l (h.directories l hl)⟩

theorem keeps_put {l : Location} (h : t.entryAt l ≠ some .directory) (e : Entry) :
    t.Keeps (t.put l e) := by
  by_cases hfree : t.IsFree l
  · refine ⟨?_, fun l' hl' => ?_⟩
    · rw [put, dif_pos hfree]
    · have hne : l ≠ l' := by
        rintro rfl
        exact h hl'
      rw [entryAt_put hfree, if_neg hne]
      exact hl'
  · rw [put, dif_neg hfree]
    exact ⟨rfl, fun _ hl => hl⟩

theorem keeps_drop {l : Location} {content : ByteArray}
    (h : t.entryAt l = some (.file content)) : t.Keeps (t.drop l) := by
  refine ⟨?_, fun l' hl' => ?_⟩
  · rw [drop]
    split <;> rfl
  · have hne : l ≠ l' := by
      rintro rfl
      exact absurd (h.symm.trans hl') (by simp)
    rw [entryAt_drop h, if_neg hne]
    exact hl'

/-! ## Walks -/

theorem step_eq_ok {l l' : Location} {piece : String} (h : t.step l piece = .ok l') :
    t.entryAt l = some .directory := by
  rw [step] at h
  split at h
  next => exact absurd h (by simp)
  next => exact absurd h (by simp)
  next hdirectory => exact hdirectory

theorem Keeps.step (hkeeps : t.Keeps t') {l l' : Location} {piece : String}
    (h : t.step l piece = .ok l') : t'.step l piece = .ok l' := by
  have hdirectory := step_eq_ok h
  rw [FileTree.step, hdirectory] at h
  rw [FileTree.step, hkeeps.directories l hdirectory]
  exact h

theorem Keeps.walk (hkeeps : t.Keeps t') {l l' : Location} {pieces : List String}
    (h : t.walk l pieces = .ok l') : t'.walk l pieces = .ok l' := by
  induction pieces generalizing l with
  | nil => exact h
  | cons piece pieces ih =>
    rw [FileTree.walk] at h
    split at h
    next => exact absurd h (by simp)
    next next hstep =>
      rw [FileTree.walk, hkeeps.step hstep]
      exact ih h

theorem Keeps.start (hkeeps : t.Keeps t') (p : Path) : t'.start p = t.start p := by
  rw [FileTree.start, FileTree.start, hkeeps.current]

/-- A walk goes on from where its first part leads. -/
theorem walk_append_eq_ok_iff {l l' : Location} {before behind : List String} :
    t.walk l (before ++ behind) = .ok l' ↔
      ∃ between, t.walk l before = .ok between ∧ t.walk between behind = .ok l' := by
  induction before generalizing l with
  | nil => simp [walk]
  | cons piece before ih =>
    rw [List.cons_append, walk, walk]
    cases t.step l piece with
    | error fault => simp
    | ok next => exact ih

/-- The last step of a walk starts where the steps before it lead. -/
theorem walk_concat_eq_ok_iff {l l' : Location} {before : List String} {last : String} :
    t.walk l (before ++ [last]) = .ok l' ↔
      ∃ above, t.walk l before = .ok above ∧ t.step above last = .ok l' := by
  have hone : ∀ above, t.walk above [last] = .ok l' ↔ t.step above last = .ok l' := by
    intro above
    rw [walk]
    cases t.step above last with
    | error fault => simp
    | ok next => simp [walk]
  simp only [walk_append_eq_ok_iff, hone]

theorem locate_eq_ok_iff {p : Path} {l : Location} :
    t.locate p = .ok l ↔ ∃ start, t.start p = .ok start ∧ t.walk start p.pieces = .ok l := by
  rw [locate]
  cases t.start p with
  | error fault => simp
  | ok start => simp

theorem Keeps.locate (hkeeps : t.Keeps t') {p : Path} {l : Location} (h : t.locate p = .ok l) :
    t'.locate p = .ok l := by
  obtain ⟨start, hstart, hwalk⟩ := locate_eq_ok_iff.1 h
  exact locate_eq_ok_iff.2 ⟨start, (hkeeps.start p).trans hstart, hkeeps.walk hwalk⟩

theorem find_eq_ok_iff {p : Path} {e : Entry} :
    t.find p = .ok e ↔ ∃ l, t.locate p = .ok l ∧ t.entryAt l = some e := by
  rw [find]
  cases t.locate p with
  | error fault => simp
  | ok l =>
    dsimp only
    cases hentry : t.entryAt l with
    | none => simp [hentry]
    | some other => simp [hentry]

/-- Where a path ends: nowhere if it has no name, and otherwise where its last name leads in the
directory to which the pieces before it lead. -/
theorem slot_eq_ok_iff {p : Path} {s : Slot} :
    t.slot p = .ok s ↔ ∃ start, t.start p = .ok start ∧
      (p.pieces.reverse.dropWhile (· = "") = [] ∧ s = ⟨[], false, decide (0 < p.pieces.length)⟩ ∨
        ∃ above last before location, p.pieces.reverse.dropWhile (· = "") = last :: before ∧
          t.walk start before.reverse = .ok above ∧ t.step above last = .ok location ∧
          s = ⟨location, decide (last ≠ "." ∧ last ≠ ".."),
            decide (before.length + 1 < p.pieces.length)⟩) := by
  constructor
  · intro h
    rw [slot] at h
    split at h
    next => exact absurd h (by simp)
    next start hstart =>
      refine ⟨start, hstart, ?_⟩
      dsimp only at h
      split at h
      next hending =>
        cases h
        exact Or.inl ⟨hending, by simp [hending]⟩
      next last before hending =>
        split at h
        next => exact absurd h (by simp)
        next above habove =>
          split at h
          next => exact absurd h (by simp)
          next location hlocation =>
            cases h
            exact Or.inr ⟨above, last, before, location, hending, habove, hlocation,
              by simp [hending]⟩
  · rintro ⟨start, hstart,
      ⟨hending, rfl⟩ | ⟨above, last, before, location, hending, habove, hlocation, rfl⟩⟩
    · simp [slot, hstart, hending]
    · simp [slot, hstart, hending, habove, hlocation]

/-- The end of a path is its last name, in the directory to which the pieces before it lead. -/
theorem slot_eq_ok {p : Path} {s : Slot} (h : t.slot p = .ok s) (hnamed : s.isNamed = true) :
    ∃ start above last before, t.start p = .ok start ∧
      p.pieces.reverse.dropWhile (· = "") = last :: before ∧
      t.walk start before.reverse = .ok above ∧ t.step above last = .ok s.location ∧
      s.location = above ++ [last] ∧ s.slashed = decide (before.length + 1 < p.pieces.length) := by
  obtain ⟨start, hstart, ⟨-, rfl⟩ | ⟨above, last, before, _, hending, habove, hlocation, rfl⟩⟩ :=
    slot_eq_ok_iff.1 h
  · exact absurd hnamed (by simp)
  · refine ⟨start, above, last, before, hstart, hending, habove, hlocation, ?_, rfl⟩
    have hempty : last ≠ "" := by
      have hhead := List.head?_dropWhile_not (fun piece => decide (piece = "")) p.pieces.reverse
      simpa [hending] using hhead
    -- A name leads one level down.
    obtain ⟨hpoint, hpoints⟩ : last ≠ "." ∧ last ≠ ".." := of_decide_eq_true hnamed
    rw [step, step_eq_ok hlocation] at hlocation
    simp only [hempty, hpoint, hpoints, or_self, if_false] at hlocation
    split at hlocation
    next => exact absurd hlocation (by simp)
    next => exact (Except.ok.inj hlocation).symm

theorem Keeps.slot (hkeeps : t.Keeps t') {p : Path} {s : Slot} (h : t.slot p = .ok s) :
    t'.slot p = .ok s := by
  rw [slot_eq_ok_iff] at h ⊢
  rw [hkeeps.start]
  obtain ⟨start, hstart, hnone | ⟨above, last, before, _, hending, habove, hlocation, hs⟩⟩ := h
  · exact ⟨start, hstart, Or.inl hnone⟩
  · exact ⟨start, hstart, Or.inr ⟨above, last, before, _, hending, hkeeps.walk habove,
      hkeeps.step hlocation, hs⟩⟩

/-- A named place where no directory is can take a file. -/
theorem isFree_of_slot {p : Path} {s : Slot} (h : t.slot p = .ok s) (hnamed : s.isNamed = true)
    (hfile : t.entryAt s.location ≠ some .directory) : t.IsFree s.location := by
  obtain ⟨start, above, last, before, -, -, -, hstep, hlocation, -⟩ := slot_eq_ok h hnamed
  rw [hlocation] at hfile ⊢
  refine ⟨by simp, ?_, hfile⟩
  rw [List.dropLast_concat]
  exact step_eq_ok hstep

/-- Without slashes behind it, a path is its last name in the directory to which the pieces before
it lead. -/
theorem pieces_of_slot {p : Path} {s : Slot} (h : t.slot p = .ok s) (hnamed : s.isNamed = true)
    (hslashed : s.slashed = false) :
    ∃ start above last before, t.start p = .ok start ∧ p.pieces = before ++ [last] ∧
      t.walk start before = .ok above ∧ t.step above last = .ok s.location ∧
      s.location = above ++ [last] := by
  obtain ⟨start, above, last, before, hstart, hending, habove, hstep, hlocation, hlength⟩ :=
    slot_eq_ok h hnamed
  refine ⟨start, above, last, before.reverse, hstart, ?_, habove, hstep, hlocation⟩
  have hall : p.pieces.reverse.dropWhile (· = "") = p.pieces.reverse := by
    refine (List.dropWhile_suffix _).eq_of_length_le ?_
    rw [hending, List.length_reverse, List.length_cons]
    rw [hslashed] at hlength
    simpa using hlength
  rw [← List.reverse_reverse p.pieces, ← hall, hending, List.reverse_cons]

/-- Without slashes behind it, a path leads to its place. -/
theorem locate_of_slot {p : Path} {s : Slot} (h : t.slot p = .ok s) (hnamed : s.isNamed = true)
    (hslashed : s.slashed = false) : t.locate p = .ok s.location := by
  obtain ⟨start, above, last, before, hstart, hpieces, habove, hstep, -⟩ :=
    pieces_of_slot h hnamed hslashed
  refine locate_eq_ok_iff.2 ⟨start, hstart, ?_⟩
  rw [hpieces]
  exact walk_concat_eq_ok_iff.2 ⟨above, habove, hstep⟩

/-! ## Files -/

/-- The text in a file that holds just a text. -/
theorem readText_of_find {p : Path} {text : String} (h : t.find p = .ok (.file text.toUTF8)) :
    t.readText p = .ok text := by
  have htext : String.fromUTF8? text.toUTF8 = some text := by
    simp [String.fromUTF8?, String.fromUTF8, text.isValidUTF8]
  rw [readText, h]
  simp only [htext]

/-- A file that was written has its content at the place of its path. -/
theorem entryAt_of_write {p : Path} {content : ByteArray} (h : t.write p content = .ok t') :
    ∃ s, t'.slot p = .ok s ∧ t'.entryAt s.location = some (.file content) := by
  rw [write] at h
  split at h
  next => exact absurd h (by simp)
  next s hs =>
    split at h
    next hplace =>
      cases h
      have hkeeps := keeps_put hplace.2.2 (.file content)
      have hfree := isFree_of_slot hs hplace.1 hplace.2.2
      refine ⟨s, hkeeps.slot hs, ?_⟩
      rw [entryAt_put hfree, if_pos rfl]
    next => exact absurd h (by simp)

/-- What it takes to move a file, and what comes of it. -/
theorem moveFile_eq_ok {source target : Path} {s : Slot} {content : ByteArray}
    (hs : t.slot source = .ok s) (hcontent : t.entryAt s.location = some (.file content))
    (h : t.moveFile source target = .ok t') :
    ∃ d, t.slot target = .ok d ∧ d.isNamed = true ∧ d.slashed = false ∧
      t.entryAt d.location ≠ some .directory ∧
      t' = (t.drop s.location).put d.location (.file content) := by
  rw [moveFile, hs] at h
  split at h
  next => exact absurd h (by simp)
  next => exact absurd h (by simp)
  next s' d hs' hd =>
    cases hs'
    split at h
    next => exact absurd h (by simp)
    next hnamed =>
      rw [hcontent] at h
      dsimp only at h
      split at h
      next => exact absurd h (by simp)
      next hslashed =>
        split at h
        next => exact absurd h (by simp)
        next hfile =>
          simp only [not_or, Bool.not_eq_true, Bool.not_eq_false] at hnamed hslashed
          exact ⟨d, hd, hnamed.2, hslashed.2, hfile, (Except.ok.inj h).symm⟩

/-- Without the file the target is still no directory, and so it can take the file. -/
theorem isFree_drop {target : Path} {l : Location} {d : Slot} {content : ByteArray}
    (hcontent : t.entryAt l = some (.file content)) (hd : t.slot target = .ok d)
    (hnamed : d.isNamed = true) (hfile : t.entryAt d.location ≠ some .directory) :
    (t.drop l).IsFree d.location := by
  refine isFree_of_slot ((keeps_drop hcontent).slot hd) hnamed ?_
  rw [entryAt_drop hcontent]
  split
  · simp
  · exact hfile

/-- A file that was moved is found under the other path with the content that it had. -/
theorem find_of_moveFile {source target : Path} {s : Slot} {content : ByteArray}
    (hs : t.slot source = .ok s) (hcontent : t.entryAt s.location = some (.file content))
    (h : t.moveFile source target = .ok t') : t'.find target = .ok (.file content) := by
  obtain ⟨d, hd, hnamed, hslashed, hfile, rfl⟩ := moveFile_eq_ok hs hcontent h
  have hplace := isFree_drop hcontent hd hnamed hfile
  have hkeeps := (keeps_drop hcontent).trans (keeps_put hplace.2.2 (.file content))
  refine find_eq_ok_iff.2 ⟨d.location, locate_of_slot (hkeeps.slot hd) hnamed hslashed, ?_⟩
  rw [entryAt_put hplace, if_pos rfl]

/-- A file that was replaced is found with the new content, wherever its path leads. -/
theorem find_of_replace {p : Path} {content : ByteArray}
    (h : t.replace p content = (t', .ok ())) : t'.find p = .ok (.file content) := by
  rw [replace] at h
  split at h
  next => exact absurd h (by simp)
  next made _ =>
    rw [replaceThrough] at h
    split at h
    next => exact absurd h (by simp)
    next written hwritten =>
      obtain ⟨s, hs, hcontent⟩ := entryAt_of_write hwritten
      split at h
      next moved hmoved =>
        cases h
        exact find_of_moveFile hs hcontent hmoved
      next => exact absurd h (by simp)

end Classpath.FileTree
