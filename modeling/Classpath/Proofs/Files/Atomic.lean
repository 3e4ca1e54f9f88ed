import Classpath.Proofs.Files.Course

namespace Classpath.FileTree

/-! # Replacing is all or nothing

Wherever the replacement of a file stops, what was under its path is still there. This is said of
paths of names, which lead to one place in every tree.

1. **Places**: a path of names leads to one location, and what is found there depends on the entry
   at that location only.
2. **Directories**: what is made on the way to a place are directories above it.
3. **Outcomes**: what is under the path after a success and after a failure. -/

variable {t t' : FileTree} {p : Path}

/-! ## Places -/

/-- Where a path of names leads: from the current directory along the names. -/
def place (t : FileTree) (p : Path) : Location :=
  t.current ++ p.names

theorem place_eq (h : t'.current = t.current) (p : Path) : t'.place p = t.place p := by
  rw [place, place, h]

theorem start_eq (h : t'.current = t.current) (p : Path) : t'.start p = t.start p := by
  rw [start, start, h]

theorem start_of_named (hp : p.Named) {l : Location} (h : t.start p = .ok l) : l = t.current := by
  rw [start, Path.isAbsolute_of_named hp] at h
  split at h
  · exact absurd h (by simp)
  · split at h
    · exact absurd h (by simp)
    · split at h
      · exact absurd h (by simp)
      · exact (Except.ok.inj h).symm

/-- A piece that is no point leads one level down, or nowhere if it is empty. -/
theorem step_of_named {l l' : Location} {piece : String} (hpiece : piece ≠ "." ∧ piece ≠ "..")
    (h : t.step l piece = .ok l') : l' = l ++ [piece].filter (· ≠ "") := by
  rw [step, step_eq_ok h] at h
  by_cases hempty : piece = ""
  · simp only [hempty, true_or, if_true] at h
    simp [hempty, Except.ok.inj h]
  · simp only [hempty, hpiece.1, hpiece.2, or_self, if_false] at h
    split at h
    · exact absurd h (by simp)
    · simp [hempty, (Except.ok.inj h).symm]

theorem walk_of_named {l l' : Location} {pieces : List String}
    (hpieces : ∀ piece ∈ pieces, piece ≠ "." ∧ piece ≠ "..") (h : t.walk l pieces = .ok l') :
    l' = l ++ pieces.filter (· ≠ "") := by
  induction pieces generalizing l with
  | nil =>
    rw [walk] at h
    simp [Except.ok.inj h]
  | cons piece pieces ih =>
    rw [walk] at h
    split at h
    next => exact absurd h (by simp)
    next next hstep =>
      have hfirst := step_of_named (hpieces piece List.mem_cons_self) hstep
      have hrest := ih (fun x hx => hpieces x (List.mem_cons_of_mem piece hx)) h
      rw [hrest, hfirst, List.append_assoc, ← List.filter_append, List.singleton_append]

theorem locate_of_named (hp : p.Named) {l : Location} (h : t.locate p = .ok l) :
    l = t.place p := by
  obtain ⟨start, hstart, hwalk⟩ := locate_eq_ok_iff.1 h
  rw [walk_of_named hp.2 hwalk, start_of_named hp hstart]
  rfl

theorem entryAt_of_find (hp : p.Named) {e : Entry} (h : t.find p = .ok e) :
    t.entryAt (t.place p) = some e := by
  obtain ⟨l, hl, he⟩ := find_eq_ok_iff.1 h
  rw [← locate_of_named hp hl]
  exact he

/-- Every location above an entry is a directory. -/
theorem directory_above {l above : Location} (h : (t.entryAt l).isSome) (habove : above <+: l)
    (hne : above ≠ l) : t.entryAt above = some .directory := by
  obtain ⟨rest, rfl⟩ := habove
  induction rest using List.reverseRecOn with
  | nil => simp at hne
  | append_singleton rest name ih =>
    rw [← List.append_assoc] at h
    have hdirectory : t.entryAt (above ++ rest) = some .directory := t.rooted _ name h
    by_cases hnone : rest = []
    · simpa [hnone] using hdirectory
    · exact ih (by simp [hdirectory]) (by simpa using hnone)

/-- A walk over names needs no more than the directories on its way. -/
theorem walk_transfer {l l' : Location} {pieces : List String}
    (hpieces : ∀ piece ∈ pieces, piece ≠ "." ∧ piece ≠ "..") (h : t'.walk l pieces = .ok l')
    (hsame : ∀ m, m <+: l' → t'.entryAt m = some .directory → t.entryAt m = some .directory) :
    t.walk l pieces = .ok l' := by
  induction pieces generalizing l with
  | nil => exact h
  | cons piece pieces ih =>
    have hway := walk_of_named hpieces h
    rw [walk] at h
    split at h
    next => exact absurd h (by simp)
    next next hstep =>
      have hdirectory' := step_eq_ok hstep
      have hdirectory : t.entryAt l = some .directory := by
        refine hsame l ?_ hdirectory'
        rw [hway]
        exact List.prefix_append _ _
      have hstep' : t.step l piece = .ok next := by
        rw [step, hdirectory'] at hstep
        rw [step, hdirectory]
        exact hstep
      rw [walk, hstep']
      exact ih (fun x hx => hpieces x (List.mem_cons_of_mem piece hx)) h

/-- With the same entry at the end of a path of names, the same is found: above an entry there are
directories all the way. -/
theorem find_transfer (hp : p.Named) (hcurrent : t'.current = t.current)
    (hentry : t'.entryAt (t.place p) = t.entryAt (t.place p)) {e : Entry} (h : t'.find p = .ok e) :
    t.find p = .ok e := by
  obtain ⟨l, hl, he⟩ := find_eq_ok_iff.1 h
  have hplace : l = t.place p := (locate_of_named hp hl).trans (place_eq hcurrent p)
  rw [hplace] at hl he
  obtain ⟨start, hstart, hwalk⟩ := locate_eq_ok_iff.1 hl
  rw [start_eq hcurrent] at hstart
  refine find_eq_ok_iff.2 ⟨t.place p, locate_eq_ok_iff.2 ⟨start, hstart, ?_⟩, hentry.symm.trans he⟩
  refine walk_transfer hp.2 hwalk fun m hm hdirectory => ?_
  by_cases hend : m = t.place p
  · rw [hend] at hdirectory ⊢
    rw [← hentry]
    exact hdirectory
  · refine directory_above ?_ hm hend
    rw [← hentry, he]
    rfl

theorem held_eq (hp : p.Named) (hcurrent : t'.current = t.current)
    (hentry : t'.entryAt (t.place p) = t.entryAt (t.place p)) :
    (t'.find p).toOption = (t.find p).toOption := by
  ext e
  rw [toOption_eq_some_iff, toOption_eq_some_iff]
  refine ⟨find_transfer hp hcurrent hentry, find_transfer hp hcurrent.symm ?_⟩
  rw [place_eq hcurrent]
  exact hentry.symm

/-! ## Directories -/

/-- The end of a path of names is a name, in its place. -/
theorem slot_of_named (hp : p.Named) {s : Slot} (h : t.slot p = .ok s) :
    s.location = t.place p := by
  have hnamed : s.isNamed = true := by
    obtain ⟨-, -, ⟨hnone, -⟩ | ⟨-, last, before, -, hending, -, -, rfl⟩⟩ := slot_eq_ok_iff.1 h
    · exact absurd hnone hp.ending_ne_nil
    · have hlast : last ∈ p.pieces := Path.mem_pieces_of_ending hending (by simp)
      exact decide_eq_true (hp.2 last hlast)
  obtain ⟨start, above, last, before, hstart, hending, habove, hstep, -, -⟩ := slot_eq_ok h hnamed
  have hpieces : ∀ piece ∈ before.reverse ++ [last], piece ≠ "." ∧ piece ≠ ".." := by
    intro piece hpiece
    refine hp.2 piece (Path.mem_pieces_of_mem_ending ?_)
    rw [hending]
    simpa [or_comm] using hpiece
  have hwalk : t.walk start (before.reverse ++ [last]) = .ok s.location :=
    walk_concat_eq_ok_iff.2 ⟨above, habove, hstep⟩
  rw [walk_of_named hpieces hwalk, start_of_named hp hstart, place, Path.names_eq, hending,
    List.reverse_cons]

/-- Making sure of the directory above a path of names makes directories above its place only. -/
theorem furnished_above (hp : p.Named) :
    Furnished (fun l => l <+: t.place p ∧ l ≠ t.place p) t (t.ensureParent p).1 := by
  refine furnished_ensureParent fun above habove q hq hne u hu s hs => ?_
  obtain ⟨hnamed, hnames, hother⟩ := Path.named_of_mem_ancestors hp habove q hq hne
  rw [slot_of_named hnamed hs, place_eq hu, place, place]
  exact ⟨(List.prefix_append_right_inj _).2 hnames, fun hsame =>
    hother (List.append_cancel_left hsame)⟩

/-- What is made above a place leaves alone what is there and below. -/
theorem Furnished.below {place : Location}
    (h : Furnished (fun l => l <+: place ∧ l ≠ place) t t') {l : Location} (hl : place <+: l) :
    t'.entryAt l = t.entryAt l := by
  rcases h.entries l with hsame | ⟨-, -, habove, hne⟩
  · exact hsame
  · exact absurd (habove.eq_of_length (Nat.le_antisymm habove.length_le hl.length_le)) hne

/-! ## Outcomes -/

/-- The sibling is neither the file nor anything below it. -/
theorem place_sibling_ne (hp : p.Named) {l : Location} (hl : t.place p <+: l) :
    t.place (sibling p) ≠ l := by
  rintro rfl
  obtain ⟨above, last, hparts⟩ := hp.exists_parts
  rw [place, place, List.prefix_append_right_inj, hparts.names_sibling, hparts.names,
    List.dropLast_concat, List.prefix_append_right_inj] at hl
  have hname : last = last ++ ".tmp" := by simpa using hl
  have hlength := congrArg String.length hname
  rw [String.length_append] at hlength
  have hfour : ".tmp".length = 4 := rfl
  omega

/-- A path of names leads to its place in the tree that was furnished, too. -/
theorem Furnished.locate_of_named {Kind : Location → Prop} (h : Furnished Kind t t')
    (hp : p.Named) {l : Location} (hl : t'.locate p = .ok l) : l = t.place p :=
  (FileTree.locate_of_named hp hl).trans (place_eq h.current p)

/-- After a success there is nothing at the place of the sibling. -/
theorem entryAt_sibling_of_replace {content : ByteArray} (hp : p.Named)
    (h : t.replace p content = (t', .ok ())) :
    t'.current = t.current ∧ t'.entryAt (t.place (sibling p)) = none := by
  obtain ⟨above, last, hparts⟩ := hp.exists_parts
  obtain ⟨made, hmade, hcourse⟩ := course_replace (furnished_above hp) content
  rw [h] at hcourse
  cases hcourse with
  | done hl _ _ _ hne hdropped hmoved =>
    refine ⟨(hmoved.current.trans hdropped.current).trans hmade.current, ?_⟩
    rw [← hmade.locate_of_named hparts.named_sibling hl, hmoved.other hne.symm, hdropped.entry]

/-- What a failure leaves: all that is at a place and below it, no file under the path of the
sibling nor a new one at its place, and all directories. -/
structure LeftAlone (t : FileTree) (p : Path) (t' : FileTree) : Prop where
  below : ∀ l, t.place p <+: l → t'.entryAt l = t.entryAt l
  hidden : ∀ old, t'.find (sibling p) ≠ .ok (.file old)
  stale : ∀ old, t'.entryAt (t.place (sibling p)) = some (.file old) →
    t.entryAt (t.place (sibling p)) = some (.file old)
  keeps : t.Keeps t'

theorem leftAlone_of_replace {content : ByteArray} {failure : Failure} (hp : p.Named)
    (h : t.replace p content = (t', .error failure)) : LeftAlone t p t' := by
  obtain ⟨above, last, hparts⟩ := hp.exists_parts
  obtain ⟨made, hmade, hcourse⟩ := course_replace (furnished_above hp) content
  rw [h] at hcourse
  cases hcourse with
  | stopped hnone =>
    exact ⟨fun l hl => hmade.below hl, hnone, fun old hold => hmade.file_iff.1 hold, hmade.keeps⟩
  | undone hl hfile hcleared =>
    obtain rfl := hmade.locate_of_named hparts.named_sibling hl
    refine ⟨fun l hl => ?_, fun old hold => ?_, fun old hold => ?_,
      hmade.keeps.trans (hcleared.keeps hfile)⟩
    · rw [hcleared.other (place_sibling_ne hp hl), hmade.below hl]
    · have hentry := entryAt_of_find hparts.named_sibling hold
      rw [place_eq (hcleared.current.trans hmade.current), hcleared.entry] at hentry
      cases hentry
    · rw [hcleared.entry] at hold
      cases hold

/-- Replacing a file is all or nothing for its path, and leaves nothing behind at the sibling.

1. The sibling has the name of the file with `.tmp` behind it.
2. After a success the content is found under the path, every location above it is a directory, and
   there is nothing at the sibling.
3. After a failure there is under the path what was there before, be it a file, a directory with all
   that is in it, or nothing. No file is found under the path of the sibling, none is new in its
   place, which a path may be too long to reach, and no directory is gone. -/
theorem replace_all_or_nothing (hp : p.Named) (t : FileTree) (content : ByteArray) :
    (∃ last, p.names = p.names.dropLast ++ [last] ∧
        (sibling p).names = p.names.dropLast ++ [last ++ ".tmp"]) ∧
      (∀ t', t.replace p content = (t', .ok ()) →
        t'.find p = .ok (.file content) ∧
          (∀ above, above <+: p.names → above ≠ p.names →
            t'.entryAt (t.current ++ above) = some .directory) ∧
          t'.entryAt (t.current ++ (sibling p).names) = none ∧
          ∀ e, t'.find (sibling p) ≠ .ok e) ∧
      ∀ t' failure, t.replace p content = (t', .error failure) →
        (t'.find p).toOption = (t.find p).toOption ∧
          (∀ l, t.current ++ p.names <+: l → t'.entryAt l = t.entryAt l) ∧
          (∀ old, t'.find (sibling p) ≠ .ok (.file old)) ∧
          (∀ old, t'.entryAt (t.current ++ (sibling p).names) = some (.file old) →
            t.entryAt (t.current ++ (sibling p).names) = some (.file old)) ∧
          ∀ l, t.entryAt l = some .directory → t'.entryAt l = some .directory := by
  obtain ⟨above, last, hparts⟩ := hp.exists_parts
  refine ⟨⟨last, ?_, hparts.names_sibling⟩, fun t' h => ?_, fun t' failure h => ?_⟩
  · rw [hparts.names, List.dropLast_concat]
  · have hfound := find_of_replace h
    obtain ⟨hcurrent, hgone⟩ := entryAt_sibling_of_replace hp h
    refine ⟨hfound, fun names hnames hne => ?_, hgone, fun e he => ?_⟩
    · have hentry := entryAt_of_find hp hfound
      rw [place_eq hcurrent] at hentry
      refine directory_above (l := t.place p) (by rw [hentry]; rfl)
        ((List.prefix_append_right_inj _).2 hnames) fun hsame => hne ?_
      exact List.append_cancel_left hsame
    · have hentry := entryAt_of_find hparts.named_sibling he
      rw [place_eq hcurrent, hgone] at hentry
      cases hentry
  · have hleft := leftAlone_of_replace hp h
    have hsame := hleft.below _ (List.prefix_refl _)
    exact ⟨held_eq hp hleft.keeps.current hsame, hleft.below, hleft.hidden, hleft.stale,
      hleft.keeps.directories⟩

/-- A tree with a stale sibling, and with a directory where a file is to go. -/
def cluttered : FileTree :=
  ((empty []).plant ["d", "x.tmp"] (.file "stale".toUTF8)).plant ["d", "y", "z"]
    (.file "kept".toUTF8)

theorem replace_all_or_nothing_cluttered :
    (∃ t', cluttered.replace "d//x" "new".toUTF8 = (t', .ok ()) ∧
        t'.find "d//x" = .ok (.file "new".toUTF8) ∧ ∀ e, t'.find (sibling "d//x") ≠ .ok e) ∧
      (∃ t' failure, cluttered.replace "d/y" "new".toUTF8 = (t', .error failure) ∧
        t'.entryAt ["d", "y", "z"] = some (.file "kept".toUTF8)) ∧
      ∃ t' failure, cluttered.replace "e/f/" "new".toUTF8 = (t', .error failure) ∧
        ∀ old, t'.find (sibling "e/f/") ≠ .ok (.file old) := by
  refine ⟨?_, ?_, ?_⟩
  · have hdone : (cluttered.replace "d//x" "new".toUTF8).2 = .ok () := by rfl
    rcases hrun : cluttered.replace "d//x" "new".toUTF8 with ⟨t', outcome⟩
    obtain rfl : outcome = .ok () := by rwa [hrun] at hdone
    obtain ⟨-, hsuccess, -⟩ := replace_all_or_nothing (p := "d//x") (by decide) cluttered _
    obtain ⟨hfound, -, -, hgone⟩ := hsuccess t' hrun
    exact ⟨t', rfl, hfound, hgone⟩
  · have hstopped : (cluttered.replace "d/y" "new".toUTF8).2.isOk = false := by decide +kernel
    rcases hrun : cluttered.replace "d/y" "new".toUTF8 with ⟨t', outcome | outcome⟩
    · obtain ⟨-, -, hfailure⟩ := replace_all_or_nothing (p := "d/y") (by decide) cluttered _
      obtain ⟨-, hbelow, -⟩ := hfailure t' outcome hrun
      exact ⟨t', outcome, rfl, hbelow ["d", "y", "z"] (by decide)⟩
    · rw [hrun] at hstopped
      cases hstopped
  · have hstopped : (cluttered.replace "e/f/" "new".toUTF8).2.isOk = false := by decide +kernel
    rcases hrun : cluttered.replace "e/f/" "new".toUTF8 with ⟨t', outcome | outcome⟩
    · obtain ⟨-, -, hfailure⟩ := replace_all_or_nothing (p := "e/f/") (by decide) cluttered _
      obtain ⟨-, -, hsibling, -⟩ := hfailure t' outcome hrun
      exact ⟨t', outcome, rfl, hsibling⟩
    · rw [hrun] at hstopped
      cases hstopped

end Classpath.FileTree
