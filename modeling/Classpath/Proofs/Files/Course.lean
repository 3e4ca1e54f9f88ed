import Classpath.Proofs.Files.Parents

namespace Classpath.FileTree

/-! # How a file is replaced

A file is replaced in three steps that may fail: the directories above it are made, its sibling is
written, and the sibling takes its place. Whatever the path is made of, the entries in which the
trees before and afterwards differ are those of new directories and of these two places.

1. **Directories**: what is made on the way to a file are directories that were missing.
2. **Changes**: trees that differ in the entry at one location.
3. **Ends of paths**: a path that ends in a name has its place to be written, moved or removed.
4. **Courses**: where replacing stops, and what it has done by then. -/

variable {t t' : FileTree} {p : Path}

/-! ## Directories -/

/-- Some directories were made where there was nothing, at locations of a kind. -/
structure Furnished (Kind : Location → Prop) (t t' : FileTree) : Prop where
  current : t'.current = t.current
  entries : ∀ l, t'.entryAt l = t.entryAt l ∨
    t.entryAt l = none ∧ t'.entryAt l = some .directory ∧ Kind l

section Furnished

variable {Kind : Location → Prop}

theorem Furnished.refl (t : FileTree) : Furnished Kind t t :=
  ⟨rfl, fun _ => Or.inl rfl⟩

theorem Furnished.trans {t'' : FileTree} (h : Furnished Kind t t') (h' : Furnished Kind t' t'') :
    Furnished Kind t t'' := by
  refine ⟨h'.current.trans h.current, fun l => ?_⟩
  rcases h'.entries l with hsame | ⟨hnone, hdirectory, hkind⟩
  · rw [hsame]
    exact h.entries l
  · rcases h.entries l with hsame | ⟨-, hmade, -⟩
    · exact Or.inr ⟨hsame ▸ hnone, hdirectory, hkind⟩
    · exact absurd (hmade.symm.trans hnone) (by simp)

theorem Furnished.keeps (h : Furnished Kind t t') : t.Keeps t' := by
  refine ⟨h.current, fun l hl => ?_⟩
  rcases h.entries l with hsame | ⟨hnone, -, -⟩
  · exact hsame.trans hl
  · exact absurd (hl.symm.trans hnone) (by simp)

/-- No file was made, and none was lost. -/
theorem Furnished.file_iff (h : Furnished Kind t t') {l : Location} {old : ByteArray} :
    t'.entryAt l = some (.file old) ↔ t.entryAt l = some (.file old) := by
  rcases h.entries l with hsame | ⟨hnone, hdirectory, -⟩
  · rw [hsame]
  · simp [hnone, hdirectory]

theorem furnished_makeDirectory {q : Path} (hkind : ∀ s, t.slot q = .ok s → Kind s.location)
    (h : t.makeDirectory q = .ok t') : Furnished Kind t t' := by
  rw [makeDirectory] at h
  split at h
  next => exact absurd h (by simp)
  next s hs =>
    split at h
    next hplace =>
      cases h
      have hnone : t.entryAt s.location ≠ some .directory := by simp [hplace.2]
      refine ⟨(keeps_put hnone .directory).current, fun l => ?_⟩
      rw [entryAt_put (isFree_of_slot hs hplace.1 hnone)]
      split
      next hl =>
        rw [← hl]
        exact Or.inr ⟨hplace.2, rfl, hkind s hs⟩
      next => exact Or.inl rfl
    next => exact absurd h (by simp)

/-- Making directories for some paths makes them at the places of these paths only. -/
theorem furnished_makeFirst {paths : List Path}
    (hkind : ∀ q ∈ paths, ∀ u : FileTree, u.current = t.current →
      ∀ s, u.slot q = .ok s → Kind s.location) :
    Furnished Kind t (t.makeFirst paths).1 := by
  induction paths with
  | nil => exact Furnished.refl t
  | cons q above ih =>
    have hq := hkind q List.mem_cons_self
    have habove := ih fun x hx => hkind x (List.mem_cons_of_mem q hx)
    rw [makeFirst]
    split
    next made hmade => exact furnished_makeDirectory (hq t rfl) hmade
    next =>
      -- the directories above are missing
      split
      next made fault hmade =>
        rw [hmade] at habove
        exact habove
      next made hmade =>
        rw [hmade] at habove
        split
        next whole hwhole =>
          exact habove.trans (furnished_makeDirectory (hq made habove.current) hwhole)
        next => exact habove
    next => exact Furnished.refl t

/-- Making sure of the directory above a path makes directories at the places of the paths above it
only. -/
theorem furnished_ensureParent
    (hkind : ∀ above, p.parent? = some above → ∀ q ∈ above.ancestors, q ≠ "" →
      ∀ u : FileTree, u.current = t.current → ∀ s, u.slot q = .ok s → Kind s.location) :
    Furnished Kind t (t.ensureParent p).1 := by
  rw [ensureParent]
  split
  next => exact Furnished.refl t
  next above habove =>
    split
    next => exact Furnished.refl t
    next =>
      rw [ensureDirectory]
      split
      next => split <;> exact Furnished.refl t
      next =>
        have hmade : Furnished Kind t (t.makeDirectories above).1 := by
          refine furnished_makeFirst fun q hq => ?_
          obtain ⟨hq, hne⟩ := List.mem_filter.1 hq
          exact hkind above habove q hq (by simpa using hne)
        split
        next made hresult =>
          rw [hresult] at hmade
          exact hmade
        next made fault hresult =>
          rw [hresult] at hmade
          exact hmade

end Furnished

/-! ## Changes -/

/-- The trees are the same but for the entry at one location. -/
structure Sets (l : Location) (e : Option Entry) (t t' : FileTree) : Prop where
  current : t'.current = t.current
  entries : ∀ l', t'.entryAt l' = if l = l' then e else t.entryAt l'

theorem sets_put {l : Location} (h : t.IsFree l) (e : Entry) : Sets l (some e) t (t.put l e) :=
  ⟨(keeps_put h.2.2 e).current, entryAt_put h e⟩

theorem sets_drop {l : Location} {content : ByteArray}
    (h : t.entryAt l = some (.file content)) : Sets l none t (t.drop l) :=
  ⟨(keeps_drop h).current, entryAt_drop h⟩

section Sets

variable {l : Location} {e : Option Entry}

theorem Sets.again {e' : Option Entry} {t'' : FileTree} (h : Sets l e t t')
    (h' : Sets l e' t' t'') : Sets l e' t t'' := by
  refine ⟨h'.current.trans h.current, fun l' => ?_⟩
  rw [h'.entries, h.entries]
  split <;> rfl

theorem Sets.entry (h : Sets l e t t') : t'.entryAt l = e := by
  rw [h.entries, if_pos rfl]

theorem Sets.other (h : Sets l e t t') {l' : Location} (hne : l ≠ l') :
    t'.entryAt l' = t.entryAt l' := by
  rw [h.entries, if_neg hne]

/-- A place that was no directory can be set without a loss for any path. -/
theorem Sets.keeps (h : Sets l e t t') (hfile : t.entryAt l ≠ some .directory) : t.Keeps t' := by
  refine ⟨h.current, fun l' hl' => ?_⟩
  have hne : l ≠ l' := by
    rintro rfl
    exact hfile hl'
  rw [h.other hne, hl']

/-- Nor does any path gain if it is no directory then. -/
theorem Sets.keeps_back (h : Sets l e t t') (hfile : e ≠ some .directory) : t'.Keeps t := by
  refine ⟨h.current.symm, fun l' hl' => ?_⟩
  have hne : l ≠ l' := by
    rintro rfl
    exact hfile (h.entry.symm.trans hl')
  rw [← h.other hne, hl']

end Sets

/-! ## Ends of paths -/

/-- No slashes at the end of a path, none at its last name. -/
theorem slashed_of_slot {s : Slot} (hlast : p.pieces.getLast? ≠ some "") (h : t.slot p = .ok s)
    (hnamed : s.isNamed = true) : s.slashed = false := by
  obtain ⟨start, above, last, before, -, hending, -, -, -, hslashed⟩ := slot_eq_ok h hnamed
  rw [Path.ending_eq hlast] at hending
  have hlength := congrArg List.length hending
  rw [List.length_reverse, List.length_cons] at hlength
  rw [hslashed, decide_eq_false_iff_not]
  omega

/-- Without slashes at the end, whoever gets to the end of a path gets to its last name. -/
theorem exists_slot {l : Location} (hlast : p.pieces.getLast? ≠ some "") (h : t.locate p = .ok l) :
    ∃ s, t.slot p = .ok s := by
  obtain ⟨start, hstart, hwalk⟩ := locate_eq_ok_iff.1 h
  cases hending : p.pieces.reverse.dropWhile (· = "") with
  | nil => exact ⟨_, slot_eq_ok_iff.2 ⟨start, hstart, Or.inl ⟨hending, rfl⟩⟩⟩
  | cons last before =>
    have hpieces : p.pieces = before.reverse ++ [last] := by
      rw [← List.reverse_inj, ← Path.ending_eq hlast, hending]
      simp
    rw [hpieces] at hwalk
    obtain ⟨above, habove, hstep⟩ := walk_concat_eq_ok_iff.1 hwalk
    exact ⟨_, slot_eq_ok_iff.2 ⟨start, hstart,
      Or.inr ⟨above, last, before, l, hending, habove, hstep, rfl⟩⟩⟩

/-- The path of a sibling ends in a name. -/
theorem slot_sibling {s : Slot} (h : t.slot (sibling p) = .ok s) :
    s.isNamed = true ∧ s.slashed = false := by
  obtain ⟨before, hpieces⟩ := p.exists_pieces_sibling
  have hempty : p.siblingName ≠ "" := p.siblingName_ne (by decide)
  have hlast : (sibling p).pieces.getLast? ≠ some "" := by simpa [hpieces] using hempty
  have hnamed : s.isNamed = true := by
    obtain ⟨-, -, ⟨hending, -⟩ | ⟨-, last, before', -, hending, -, -, rfl⟩⟩ := slot_eq_ok_iff.1 h
    · rw [Path.ending_eq hlast, hpieces] at hending
      simp at hending
    · rw [Path.ending_eq hlast, hpieces, List.reverse_append, List.reverse_singleton,
        List.singleton_append] at hending
      obtain ⟨rfl, -⟩ := List.cons.inj hending
      exact decide_eq_true ⟨p.siblingName_ne (by decide), p.siblingName_ne (by decide)⟩
  exact ⟨hnamed, slashed_of_slot hlast h hnamed⟩

/-- What it takes to write a file, and what comes of it. -/
theorem write_eq_ok {content : ByteArray} (h : t.write p content = .ok t') :
    ∃ s, t.slot p = .ok s ∧ s.isNamed = true ∧ s.slashed = false ∧
      t.entryAt s.location ≠ some .directory ∧ Sets s.location (some (.file content)) t t' := by
  rw [write] at h
  split at h
  next => exact absurd h (by simp)
  next s hs =>
    split at h
    next hplace =>
      cases h
      obtain ⟨hnamed, hslashed, hfile⟩ := hplace
      have hfree := isFree_of_slot hs hnamed hfile
      exact ⟨s, hs, hnamed, by simpa using hslashed, hfile, sets_put hfree _⟩
    next => exact absurd h (by simp)

/-- A sibling that is there as a file can be written. -/
theorem exists_write {old : ByteArray} (h : t.find (sibling p) = .ok (.file old))
    (content : ByteArray) : ∃ written, t.write (sibling p) content = .ok written := by
  obtain ⟨l, hl, he⟩ := find_eq_ok_iff.1 h
  obtain ⟨before, hpieces⟩ := p.exists_pieces_sibling
  have hempty : p.siblingName ≠ "" := p.siblingName_ne (by decide)
  obtain ⟨s, hs⟩ := exists_slot (by simpa [hpieces] using hempty) hl
  obtain ⟨hnamed, hslashed⟩ := slot_sibling hs
  have hplace : s.location = l := by
    have hlocation := locate_of_slot hs hnamed hslashed
    rw [hl] at hlocation
    exact (Except.ok.inj hlocation).symm
  refine ⟨t.put s.location (.file content), ?_⟩
  rw [write, hs]
  simp [hnamed, hslashed, hplace, he]

theorem removeFile_eq_drop {s : Slot} {content : ByteArray} (hs : t.slot p = .ok s)
    (hcontent : t.entryAt s.location = some (.file content)) (hslashed : s.slashed = false) :
    t.removeFile p = .ok (t.drop s.location) := by
  rw [removeFile, hs]
  simp [hcontent, hslashed]

/-! ## Courses -/

/-- How replacing goes once there is a directory for the file. -/
inductive Course (t : FileTree) (p : Path) (content : ByteArray) :
    FileTree × Except Failure Unit → Prop where
  /-- The sibling cannot be written. -/
  | stopped {failure : Failure} (h : ∀ old, t.find (sibling p) ≠ .ok (.file old)) :
      Course t p content (t, .error failure)
  /-- The sibling cannot take the place of the file, and is removed. -/
  | undone {cleared : FileTree} {failure : Failure} {l : Location}
      (hl : t.locate (sibling p) = .ok l) (hfile : t.entryAt l ≠ some .directory)
      (hcleared : Sets l none t cleared) : Course t p content (cleared, .error failure)
  /-- The sibling takes the place of the file. -/
  | done {dropped moved : FileTree} {l place : Location} (hl : t.locate (sibling p) = .ok l)
      (hfile : t.entryAt l ≠ some .directory) (hplace : t.locate p = .ok place)
      (hother : t.entryAt place ≠ some .directory) (hne : l ≠ place)
      (hdropped : Sets l none t dropped)
      (hmoved : Sets place (some (.file content)) dropped moved) :
      Course t p content (moved, .ok ())

theorem course_replaceThrough (t : FileTree) (p : Path) (content : ByteArray) :
    Course t p content (t.replaceThrough (sibling p) p content) := by
  rw [replaceThrough]
  split
  next fault hfault =>
    refine Course.stopped fun old hold => ?_
    obtain ⟨written, hwritten⟩ := exists_write hold content
    rw [hfault] at hwritten
    cases hwritten
  next written hwritten =>
    obtain ⟨s, hs, hnamed, hslashed, hfile, hsets⟩ := write_eq_ok hwritten
    have hl := locate_of_slot hs hnamed hslashed
    have hs' := (hsets.keeps hfile).slot hs
    split
    next moved hmoved =>
      obtain ⟨d, hd, hdnamed, hdslashed, hdfile, rfl⟩ := moveFile_eq_ok hs' hsets.entry hmoved
      -- the two places differ in their last names
      have hne : s.location ≠ d.location := by
        obtain ⟨before, hpieces⟩ := p.exists_pieces_sibling
        obtain ⟨-, above, last, before', -, hlast, -, -, hlocation⟩ :=
          pieces_of_slot hs hnamed hslashed
        obtain ⟨-, above', last', before'', -, hlast', -, -, hlocation'⟩ :=
          pieces_of_slot hd hdnamed hdslashed
        intro hsame
        rw [hlocation, hlocation'] at hsame
        rw [hlast] at hpieces
        obtain ⟨-, hname⟩ := List.append_inj' hpieces rfl
        obtain ⟨-, hname'⟩ := List.append_inj' hsame rfl
        rw [← hname', hname] at hlast'
        exact p.pieces_ne_siblingName before'' hlast'
      have hplace := (hsets.keeps_back (by simp)).locate (locate_of_slot hd hdnamed hdslashed)
      have hother : t.entryAt d.location ≠ some .directory := by
        rw [← hsets.other hne]
        exact hdfile
      exact Course.done hl hfile hplace hother hne (hsets.again (sets_drop hsets.entry))
        (sets_put (isFree_drop hsets.entry hd hdnamed hdfile) _)
    next =>
      rw [removeFile_eq_drop hs' hsets.entry hslashed]
      exact Course.undone hl hfile (hsets.again (sets_drop hsets.entry))

/-- How replacing goes from the start: first the directories above the file are made. -/
theorem course_replace {Kind : Location → Prop} (h : Furnished Kind t (t.ensureParent p).1)
    (content : ByteArray) :
    ∃ made, Furnished Kind t made ∧ Course made p content (t.replace p content) := by
  rw [replace]
  split
  next made failure hmade =>
    rw [hmade] at h
    refine ⟨made, h, Course.stopped fun old hold => ?_⟩
    obtain ⟨l, hl, -⟩ := find_eq_ok_iff.1 hold
    exact locate_of_ensureParent hmade l hl
  next made hmade =>
    rw [hmade] at h
    exact ⟨made, h, course_replaceThrough made p content⟩

end Classpath.FileTree
