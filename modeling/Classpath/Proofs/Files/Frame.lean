import Classpath.Proofs.Files.Course

namespace Classpath.FileTree

/-! # Files that are left alone

A file is replaced through its sibling, whose name may be the name of a file that has nothing to do
with it. Such a file is lost; every other file keeps what it holds, whether the replacement succeeds
or not.

1. **One replacement**: it fills the place to which its path leads if it succeeds, it clears the
   place to which the path of its sibling leads, and it spares the files in all other places.
2. **Replacements in turn**: a file holds what the last replacement that filled its place has
   written, and it is gone if a later one has cleared the place. -/

variable {t t' : FileTree} {p : Path}

/-! ## One replacement -/

/-- A file that is to be replaced, and what it is to hold. -/
structure Replacement where
  path : Path
  content : ByteArray

namespace Replacement

/-- The tree after a replacement that was tried. -/
def after (r : Replacement) (t : FileTree) : FileTree :=
  (t.replace r.path r.content).1

/-- The replacement succeeds, and its path leads to a location. -/
def Fills (r : Replacement) (t : FileTree) (l : Location) : Prop :=
  (t.replace r.path r.content).2 = .ok () ∧ (r.after t).locate r.path = .ok l

/-- The path of the sibling leads to a location. -/
def Clears (r : Replacement) (t : FileTree) (l : Location) : Prop :=
  (r.after t).locate (sibling r.path) = .ok l

instance (r : Replacement) (t : FileTree) (l : Location) : Decidable (r.Fills t l) :=
  inferInstanceAs (Decidable (_ ∧ _))

instance (r : Replacement) (t : FileTree) (l : Location) : Decidable (r.Clears t l) :=
  inferInstanceAs (Decidable (_ = _))

end Replacement

/-- Whether there is a file or nothing at a place, every path leads where it led. -/
theorem Sets.locate_back {l l' : Location} {e : Option Entry} (h : Sets l e t t')
    (hfile : e ≠ some .directory) (hl : t'.locate p = .ok l') : t.locate p = .ok l' :=
  (h.keeps_back hfile).locate hl

/-- How a replacement goes, once directories were made. -/
theorem Replacement.course (r : Replacement) (t : FileTree) :
    ∃ made, Furnished (fun _ => True) t made ∧
      Course made r.path r.content (t.replace r.path r.content) :=
  course_replace (furnished_ensureParent fun _ _ _ _ _ _ _ _ _ => trivial) r.content

/-- A file that was filled holds the new content. -/
theorem Replacement.Fills.entry {r : Replacement} {l : Location} (h : r.Fills t l) :
    (r.after t).entryAt l = some (.file r.content) := by
  obtain ⟨hdone, hl⟩ := h
  have hfind : (r.after t).find r.path = .ok (.file r.content) :=
    find_of_replace (Prod.ext rfl hdone)
  obtain ⟨place, hplace, hentry⟩ := find_eq_ok_iff.1 hfind
  rw [hl] at hplace
  rw [Except.ok.inj hplace]
  exact hentry

/-- There is no file where a replacement has gone through its sibling. -/
theorem Replacement.Clears.entry {r : Replacement} {l : Location} (h : r.Clears t l)
    (old : ByteArray) : (r.after t).entryAt l ≠ some (.file old) := by
  obtain ⟨made, -, hcourse⟩ := r.course t
  rw [Replacement.Clears, Replacement.after] at h
  rw [Replacement.after]
  generalize t.replace r.path r.content = outcome at hcourse h
  cases hcourse with
  | stopped hnone => exact fun hold => hnone old (find_eq_ok_iff.2 ⟨l, h, hold⟩)
  | undone hl _ hcleared =>
    have hback := hcleared.locate_back (by simp) h
    rw [hl] at hback
    obtain rfl := Except.ok.inj hback
    simp [hcleared.entry]
  | done hl _ _ _ hne hdropped hmoved =>
    have hback := hdropped.locate_back (by simp) (hmoved.locate_back (by simp) h)
    rw [hl] at hback
    obtain rfl := Except.ok.inj hback
    simp [hmoved.other hne.symm, hdropped.entry]

/-- The files in all other places are those that were there, with what they held. -/
theorem Replacement.file_iff {r : Replacement} {l : Location} (hfills : ¬ r.Fills t l)
    (hclears : ¬ r.Clears t l) {old : ByteArray} :
    (r.after t).entryAt l = some (.file old) ↔ t.entryAt l = some (.file old) := by
  obtain ⟨made, hmade, hcourse⟩ := r.course t
  rw [Replacement.Fills, Replacement.after] at hfills
  rw [Replacement.Clears, Replacement.after] at hclears
  rw [Replacement.after, ← hmade.file_iff]
  generalize t.replace r.path r.content = outcome at hcourse hfills hclears
  cases hcourse with
  | stopped => rfl
  | @undone cleared failure gone hl hfile hcleared =>
    have hgone : gone ≠ l := by
      rintro rfl
      exact hclears ((hcleared.keeps hfile).locate hl)
    rw [hcleared.other hgone]
  | @done dropped moved gone place hl hfile hplace hother hne hdropped hmoved =>
    have hkeeps : made.Keeps moved := by
      refine (hdropped.keeps hfile).trans (hmoved.keeps ?_)
      rw [hdropped.other hne]
      exact hother
    have hgone : gone ≠ l := by
      rintro rfl
      exact hclears (hkeeps.locate hl)
    have hfilled : place ≠ l := by
      rintro rfl
      exact hfills ⟨rfl, hkeeps.locate hplace⟩
    rw [hmoved.other hfilled, hdropped.other hgone]

/-- A file after a replacement is the one that was filled, or one that was spared. -/
theorem Replacement.entryAt_after_iff {r : Replacement} {l : Location} {x : ByteArray} :
    (r.after t).entryAt l = some (.file x) ↔ r.Fills t l ∧ r.content = x ∨
      t.entryAt l = some (.file x) ∧ ¬ r.Fills t l ∧ ¬ r.Clears t l := by
  by_cases hfills : r.Fills t l
  · simp [hfills, hfills.entry]
  · by_cases hclears : r.Clears t l
    · simp [hfills, hclears, hclears.entry]
    · simp [hfills, hclears, Replacement.file_iff hfills hclears]

/-! ## Replacements in turn -/

/-- The tree after replacements, each of which was tried on what the one before it has left. -/
def replaceEach (t : FileTree) : List Replacement → FileTree
  | [] => t
  | r :: rs => (r.after t).replaceEach rs

/-- None of the replacements fills a location, and none clears it. -/
def Spares (l : Location) (t : FileTree) : List Replacement → Prop
  | [] => True
  | r :: rs => ¬ r.Fills t l ∧ ¬ r.Clears t l ∧ Spares l (r.after t) rs

instance decidableSpares (l : Location) (t : FileTree) : (rs : List Replacement) →
    Decidable (Spares l t rs)
  | [] => inferInstanceAs (Decidable True)
  | r :: rs =>
    have := decidableSpares l (r.after t) rs
    inferInstanceAs (Decidable (_ ∧ _ ∧ _))

/-- The last replacement that fills a location writes a content, and no later one clears it. -/
def LastFills (l : Location) (x : ByteArray) (t : FileTree) (rs : List Replacement) : Prop :=
  ∃ before r behind, rs = before ++ r :: behind ∧ r.Fills (t.replaceEach before) l ∧
    r.content = x ∧ Spares l (r.after (t.replaceEach before)) behind

theorem lastFills_cons_iff {l : Location} {x : ByteArray} {r : Replacement}
    {rs : List Replacement} :
    LastFills l x t (r :: rs) ↔ r.Fills t l ∧ r.content = x ∧ Spares l (r.after t) rs ∨
      LastFills l x (r.after t) rs := by
  constructor
  · rintro ⟨before, last, behind, hsplit, hfills, hcontent, hspares⟩
    cases before with
    | nil =>
      obtain ⟨rfl, rfl⟩ := List.cons.inj hsplit
      exact Or.inl ⟨hfills, hcontent, hspares⟩
    | cons first before =>
      obtain ⟨rfl, rfl⟩ := List.cons.inj hsplit
      exact Or.inr ⟨before, last, behind, rfl, hfills, hcontent, hspares⟩
  · rintro (⟨hfills, hcontent, hspares⟩ | ⟨before, last, behind, rfl, hlast⟩)
    · exact ⟨[], r, rs, rfl, hfills, hcontent, hspares⟩
    · exact ⟨r :: before, last, behind, rfl, hlast⟩

/-- A file after replacements in turn is the last that was filled, or one that all have spared. -/
theorem entryAt_replaceEach_iff {l : Location} {x : ByteArray} {rs : List Replacement} :
    (t.replaceEach rs).entryAt l = some (.file x) ↔
      t.entryAt l = some (.file x) ∧ Spares l t rs ∨ LastFills l x t rs := by
  induction rs generalizing t with
  | nil =>
    have hnone : ¬ LastFills l x t [] := by
      rintro ⟨before, r, behind, hsplit, -⟩
      simp at hsplit
    simp [replaceEach, Spares, hnone]
  | cons r rs ih =>
    rw [replaceEach, ih, Replacement.entryAt_after_iff, lastFills_cons_iff, Spares]
    constructor
    · rintro (⟨⟨hfills, hcontent⟩ | ⟨hentry, hfills, hclears⟩, hspares⟩ | hlast)
      · exact Or.inr (Or.inl ⟨hfills, hcontent, hspares⟩)
      · exact Or.inl ⟨hentry, hfills, hclears, hspares⟩
      · exact Or.inr (Or.inr hlast)
    · rintro (⟨hentry, hfills, hclears, hspares⟩ | ⟨hfills, hcontent, hspares⟩ | hlast)
      · exact Or.inl ⟨Or.inr ⟨hentry, hfills, hclears⟩, hspares⟩
      · exact Or.inl ⟨Or.inl ⟨hfills, hcontent⟩, hspares⟩
      · exact Or.inr hlast

/-- Replacing a file disturbs no file but the one at the path of its sibling.

1. Whether it succeeds or not, a file keeps its content if neither the path nor the path of its
   sibling leads there.
2. If it succeeds, the new content is found under the path.
3. In any case no file is found under the path of the sibling, be it one that was there before.
4. After replacements in turn, the files are those that were there and that all have spared, and
   those that were filled and that all later ones have spared, with what was written last. -/
theorem replace_spares_other_files (t : FileTree) :
    (∀ (p : Path) (content old : ByteArray) (l : Location), t.entryAt l = some (.file old) →
        (t.replace p content).1.locate p ≠ .ok l →
        (t.replace p content).1.locate (sibling p) ≠ .ok l →
        (t.replace p content).1.entryAt l = some (.file old)) ∧
      (∀ (p : Path) (content : ByteArray), (t.replace p content).2 = .ok () →
        (t.replace p content).1.find p = .ok (.file content)) ∧
      (∀ (p : Path) (content old : ByteArray),
        (t.replace p content).1.find (sibling p) ≠ .ok (.file old)) ∧
      ∀ (rs : List Replacement) (l : Location) (x : ByteArray),
        (t.replaceEach rs).entryAt l = some (.file x) ↔
          t.entryAt l = some (.file x) ∧ Spares l t rs ∨ LastFills l x t rs := by
  refine ⟨fun p content old l hold hpath hsibling => ?_, fun p content hdone => ?_,
    fun p content old hold => ?_, fun rs l x => entryAt_replaceEach_iff⟩
  · let r : Replacement := ⟨p, content⟩
    have hfills : ¬ r.Fills t l := fun hfills => hpath hfills.2
    exact (r.file_iff hfills hsibling).2 hold
  · exact find_of_replace (Prod.ext rfl hdone)
  · obtain ⟨l, hl, hentry⟩ := find_eq_ok_iff.1 hold
    let r : Replacement := ⟨p, content⟩
    have hclears : r.Clears t l := hl
    exact hclears.entry old hentry

/-- A tree with a file that has the name of a sibling. -/
def crossed : FileTree :=
  ((empty []).plant ["x.tmp"] (.file "kept".toUTF8)).plant ["z"] (.file "kept".toUTF8)

/-- Replacements of which the second goes through the file that the first has made, and the last
finds a directory in its place. -/
def errands : List Replacement :=
  [⟨"x.tmp", "a".toUTF8⟩, ⟨"x", "b".toUTF8⟩, ⟨"d/y", "c".toUTF8⟩, ⟨"d", "e".toUTF8⟩]

theorem replace_spares_other_files_crossed :
    (crossed.replace "x" "new".toUTF8).1.entryAt ["z"] = some (.file "kept".toUTF8) ∧
      (crossed.replace "x" "new".toUTF8).1.find "x" = .ok (.file "new".toUTF8) ∧
      (crossed.replaceEach errands).entryAt ["x"] = some (.file "b".toUTF8) ∧
      (crossed.replaceEach errands).entryAt ["z"] = some (.file "kept".toUTF8) := by
  obtain ⟨hother, hpath, -, hturn⟩ := replace_spares_other_files crossed
  refine ⟨?_, ?_, ?_, ?_⟩
  · exact hother "x" _ _ ["z"] (by decide +kernel) (by decide +kernel) (by decide +kernel)
  · exact hpath "x" _ (by decide +kernel)
  · refine (hturn errands ["x"] _).2 (Or.inr ?_)
    exact ⟨errands.take 1, ⟨"x", "b".toUTF8⟩, errands.drop 2, rfl, by decide +kernel, rfl,
      by decide +kernel⟩
  · exact (hturn errands ["z"] _).2 (Or.inl ⟨by decide +kernel, by decide +kernel⟩)

/-- A file with the name of the sibling is lost, though the path never leads there. -/
theorem replace_loses_sibling :
    ¬ ∀ (t : FileTree) (p : Path) (content old : ByteArray) (l : Location),
      t.entryAt l = some (.file old) → t.locate p ≠ .ok l →
        (t.replace p content).1.locate p ≠ .ok l →
        (t.replace p content).1.entryAt l = some (.file old) := by
  intro hkept
  have hlost := hkept crossed "x" "new".toUTF8 "kept".toUTF8 ["x.tmp"] (by decide +kernel)
    (by decide +kernel) (by decide +kernel)
  have hnone : (crossed.replace "x" "new".toUTF8).1.entryAt ["x.tmp"] = none := by decide +kernel
  rw [hnone] at hlost
  cases hlost

end Classpath.FileTree
