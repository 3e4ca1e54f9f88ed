import Classpath.Proofs.Key.Canonical

namespace Classpath.Artifact

/-! # Tokens of artifacts

What a segment of a token stands for goes by the number of segments: the last one is the version,
and what stands between name and version is a packaging, or a classifier and a packaging.

1. **Segments**: which lists of segments name an artifact, and which one.
2. **Texts**: an artifact is read back from its token exactly if its version is free of the
   delimiter, since a version is never more than the last segment. -/

/-! ## Segments -/

/-- Three to five segments, where the first two and the last one are not empty. -/
def WellShaped (segments : List String) : Prop :=
  3 ≤ segments.length ∧ segments.length ≤ 5 ∧ (∀ s ∈ segments.take 2, s ≠ "") ∧
    segments.getLast? ≠ some ""

instance (segments : List String) : Decidable (WellShaped segments) :=
  inferInstanceAs (Decidable (_ ∧ _ ∧ _ ∧ _))

/-- What segments say about an artifact. Group and name come first and the version last; the segment
before the version is the packaging if there are four or five segments, and the third one is the
classifier if there are five. -/
structure Describes (segments : List String) (a : Artifact) : Prop where
  group : segments[0]? = some a.key.group
  name : segments[1]? = some a.key.name
  classifier : a.key.classifier = if segments.length = 5 then segments.getD 2 "" else ""
  packaging : a.key.packaging =
    Key.packagingOf (if segments.length = 3 then "" else segments.getD (segments.length - 2) "")
  version : segments.getLast? = some a.version

/-- Segments describe at most one artifact. -/
theorem Describes.unique {segments : List String} {a b : Artifact} (ha : Describes segments a)
    (hb : Describes segments b) : a = b := by
  have hgroup : a.key.group = b.key.group := Option.some.inj (ha.group.symm.trans hb.group)
  have hname : a.key.name = b.key.name := Option.some.inj (ha.name.symm.trans hb.name)
  have hclassifier := ha.classifier.trans hb.classifier.symm
  have hpackaging := ha.packaging.trans hb.packaging.symm
  have hversion : a.version = b.version := Option.some.inj (ha.version.symm.trans hb.version)
  rcases a with ⟨⟨_, _, _, _⟩, _⟩
  rcases b with ⟨⟨_, _, _, _⟩, _⟩
  simp_all

/-- The segments of the key and the version are read apart from each other. -/
theorem ofSegments_eq_ok_iff {segments : List String} {a : Artifact} :
    ofSegments segments = .ok a ↔ ∃ keySegments,
      splitVersion segments = some (keySegments, a.version) ∧ a.version ≠ "" ∧
        Key.ofSegments keySegments = .ok a.key := by
  constructor
  · intro h
    unfold ofSegments at h
    split at h
    next => exact absurd h (by simp)
    next keySegments version hsplit =>
      split at h
      next => exact absurd h (by simp)
      next hversion =>
        split at h
        next => exact absurd h (by simp)
        next key hkey =>
          cases h
          exact ⟨keySegments, hsplit, hversion, hkey⟩
  · rintro ⟨keySegments, hsplit, hversion, hkey⟩
    simp [ofSegments, hsplit, hversion, hkey]

theorem describes_of_ofSegments {segments : List String} {a : Artifact}
    (h : ofSegments segments = .ok a) : WellShaped segments ∧ Describes segments a := by
  obtain ⟨keySegments, hsplit, hversion, hkey⟩ := ofSegments_eq_ok_iff.1 h
  obtain ⟨rest, rfl, -, hgroup, hname, hclassifier, hpackaging⟩ := Key.ofSegments_eq_ok_iff.1 hkey
  unfold splitVersion at hsplit
  split at hsplit
  next group name version =>
    cases hsplit
    exact ⟨by simp [WellShaped, hgroup, hname, hversion], rfl, rfl, hclassifier, hpackaging, rfl⟩
  next group name packaging version =>
    cases hsplit
    exact ⟨by simp [WellShaped, hgroup, hname, hversion], rfl, rfl, hclassifier, hpackaging, rfl⟩
  next group name classifier packaging version =>
    cases hsplit
    exact ⟨by simp [WellShaped, hgroup, hname, hversion], rfl, rfl, hclassifier, hpackaging, rfl⟩
  next => exact absurd hsplit (by simp)

theorem exists_ofSegments_iff {segments : List String} :
    (∃ a, ofSegments segments = .ok a) ↔ WellShaped segments := by
  constructor
  · rintro ⟨a, ha⟩
    exact (describes_of_ofSegments ha).1
  · rintro ⟨hthree, hfive, hfirst, hlast⟩
    -- the segments of the key are two or four, so the reader of keys takes them
    obtain ⟨keySegments, version, hsplit, hversion, hshape⟩ : ∃ keySegments version,
        splitVersion segments = some (keySegments, version) ∧ version ≠ "" ∧
          Key.WellShaped keySegments := by
      match segments, hthree, hfive with
      | [group, name, version], _, _ =>
        exact ⟨_, _, rfl, by simpa using hlast, by simp, by simp, hfirst⟩
      | [group, name, packaging, version], _, _ =>
        exact ⟨_, _, rfl, by simpa using hlast, by simp, by simp, hfirst⟩
      | [group, name, classifier, packaging, version], _, _ =>
        exact ⟨_, _, rfl, by simpa using hlast, by simp, by simp, hfirst⟩
    obtain ⟨key, hkey⟩ := Key.exists_ofSegments_iff.2 hshape
    exact ⟨⟨key, version⟩, ofSegments_eq_ok_iff.2 ⟨keySegments, hsplit, hversion, hkey⟩⟩

theorem ofSegments_eq_ok_iff_describes {segments : List String} {a : Artifact} :
    ofSegments segments = .ok a ↔ WellShaped segments ∧ Describes segments a := by
  refine ⟨describes_of_ofSegments, ?_⟩
  rintro ⟨hshape, ha⟩
  obtain ⟨b, hb⟩ := exists_ofSegments_iff.2 hshape
  rw [ha.unique (describes_of_ofSegments hb).2]
  exact hb

/-! ## Texts -/

theorem parse_eq_ok_iff {text : String} {a : Artifact} :
    parse text = .ok a ↔ WellShaped (Text.split ':' text) ∧ Describes (Text.split ':' text) a := by
  rw [parse, mapError_eq_ok, ofSegments_eq_ok_iff_describes]

/-- What is no token is refused with a fault that shows the whole text. -/
theorem exists_parse_eq_error {text : String} (h : ¬ WellShaped (Text.split ':' text)) :
    ∃ reason, parse text = .error (.malformedToken text reason) := by
  cases hsegments : ofSegments (Text.split ':' text) with
  | ok a => exact absurd (exists_ofSegments_iff.1 ⟨a, hsegments⟩) h
  | error flaw => exact ⟨flaw.message, by rw [parse, hsegments, mapError_error]⟩

/-- The parts that the token of an artifact shows. -/
def shown (a : Artifact) : List String :=
  if a.key.classifier = "" then [a.key.group, a.key.name, a.key.packaging, a.version]
  else [a.key.group, a.key.name, a.key.classifier, a.key.packaging, a.version]

theorem token_eq_join (a : Artifact) : a.token = Text.join ":" a.shown := by
  rw [← String.toList_inj, token, shown]
  split
  · simp [Text.join, Text.joined, toString]
  · simp [Text.join, Text.joined, toString]

/-- A version that is free of the delimiter comes back with everything else. -/
theorem parse_token {a : Artifact} (ha : a.Resolved) (hversion : ':' ∉ a.version.toList) :
    parse a.token = .ok a := by
  obtain ⟨⟨hgroup, hname, hpackaging, hcoordinates⟩, hthere⟩ := ha
  have hfree : ∀ s ∈ a.shown, ':' ∉ s.toList := by
    intro s hs
    by_cases hcoordinate : s ∈ a.key.coordinates
    · exact hcoordinates s hcoordinate
    · -- the token shows nothing but coordinates and the version
      have hlast : s = a.version := by
        rw [shown] at hs
        simp only [Key.coordinates, List.mem_cons, List.not_mem_nil, or_false, not_or] at hcoordinate
        split at hs
        · simpa [hcoordinate] using hs
        · simpa [hcoordinate] using hs
      rw [hlast]
      exact hversion
  have hnonempty : a.shown ≠ [] := by
    rw [shown]
    split <;> simp
  rw [parse, token_eq_join, Text.split_join hnonempty hfree, mapError_eq_ok]
  rcases a with ⟨⟨group, name, classifier, packaging⟩, version⟩
  by_cases hclassifier : classifier = ""
  · subst hclassifier
    simp_all [shown, ofSegments, splitVersion, Key.ofSegments, Key.packagingOf]
  · simp_all [shown, ofSegments, splitVersion, Key.ofSegments, Key.packagingOf]

/-- The version that a text names is its last segment. -/
theorem not_mem_version_of_parse {text : String} {a : Artifact} (h : parse text = .ok a) :
    ':' ∉ a.version.toList := by
  have hlast := (parse_eq_ok_iff.1 h).2.version
  exact Text.not_mem_of_mem_split (List.mem_of_getLast? hlast)

/-- What a text names goes by the number of its segments.

1. A text names an artifact exactly if it has three to five segments, the first two and the last of
   them not empty, and it names the one that the segments describe.
2. Any other text is refused with a fault that shows it as a whole.
3. Each artifact that a text names passes its check and is read back from its token.
4. An artifact that passes its check is read back from its token exactly if its version is free of
   the delimiter. -/
theorem parse_by_position :
    (∀ text, (∃ a, parse text = .ok a) ↔ WellShaped (Text.split ':' text)) ∧
      (∀ text a, parse text = .ok a → Describes (Text.split ':' text) a) ∧
      (∀ text, ¬ WellShaped (Text.split ':' text) →
        ∃ reason, parse text = .error (.malformedToken text reason)) ∧
      (∀ text a argument, parse text = .ok a →
        a.check argument = .ok () ∧ parse a.token = .ok a) ∧
      ∀ (a : Artifact) argument, a.check argument = .ok () →
        (parse a.token = .ok a ↔ ':' ∉ a.version.toList) := by
  refine ⟨fun text => ?_, fun text a h => (parse_eq_ok_iff.1 h).2, fun _ => exists_parse_eq_error,
    fun text a argument h => ?_, fun a argument h => ?_⟩
  · rw [← exists_ofSegments_iff]
    simp only [parse, mapError_eq_ok]
  · have hresolved : a.Resolved := resolved_of_parse h
    exact ⟨check_eq_ok_iff.2 hresolved, parse_token hresolved (not_mem_version_of_parse h)⟩
  · exact ⟨not_mem_version_of_parse, parse_token (check_eq_ok_iff.1 h)⟩

/-- A packaging that is left empty, a version with the delimiter whose token names another artifact,
and a text that stops before the version. -/
theorem parse_by_position_shifted :
    parse "g:n::1" = .ok ⟨.plain "g" "n", "1"⟩ ∧
      Describes (Text.split ':' "g:n::1") ⟨.plain "g" "n", "1"⟩ ∧
      parse (Artifact.token ⟨.plain "g" "n", "1"⟩) = .ok ⟨.plain "g" "n", "1"⟩ ∧
      Artifact.check "argument" ⟨.plain "g" "n", "1:2"⟩ = .ok () ∧
      parse (Artifact.token ⟨.plain "g" "n", "1:2"⟩) = .ok ⟨⟨"g", "n", "jar", "1"⟩, "2"⟩ ∧
      parse (Artifact.token ⟨.plain "g" "n", "1:2"⟩) ≠ .ok ⟨.plain "g" "n", "1:2"⟩ ∧
      ∃ reason, parse "g:n" = .error (.malformedToken "g:n" reason) := by
  obtain ⟨_, hdescribes, hrefused, hnamed, hversion⟩ := parse_by_position
  have hshort : parse "g:n::1" = .ok ⟨.plain "g" "n", "1"⟩ := rfl
  have hchecked : Artifact.check "argument" ⟨.plain "g" "n", "1:2"⟩ = .ok () := rfl
  refine ⟨hshort, hdescribes _ _ hshort, (hnamed _ _ "argument" hshort).2, hchecked, rfl, ?_,
    hrefused _ (by decide)⟩
  rw [ne_eq, hversion _ _ hchecked]
  decide

end Classpath.Artifact
