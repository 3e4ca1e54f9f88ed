import Classpath.Proofs.Tokens

namespace Classpath.Key

/-! # Canonical tokens

A key may be named by several texts: a classifier or packaging that is left out, left empty or
spelled out as the default means the same. One of these texts is the token of the key.

1. **Segments**: which lists of segments name a key, and which one. They are those that its token
   shows, with at most some defaults behind them.
2. **Texts**: every text for a key goes on where its token ends, so the token is shorter than each
   other one, and keys are the same exactly if their tokens are. -/

/-! ## Segments -/

/-- Two to four segments, the first two of which are not empty. -/
def WellShaped (segments : List String) : Prop :=
  2 ≤ segments.length ∧ segments.length ≤ 4 ∧ ∀ s ∈ segments.take 2, s ≠ ""

instance (segments : List String) : Decidable (WellShaped segments) :=
  inferInstanceAs (Decidable (_ ∧ _ ∧ _))

/-- The last segment is empty, or the fourth one spells out the default. -/
def Padded (segments : List String) : Prop :=
  segments.getLast? = some "" ∨ segments[3]? = some defaultPackaging

instance (segments : List String) : Decidable (Padded segments) :=
  inferInstanceAs (Decidable (_ ∨ _))

/-- Group and name are taken as they are; the default stands in for what is missing. -/
theorem ofSegments_eq_ok_iff {segments : List String} {k : Key} :
    ofSegments segments = .ok k ↔ ∃ rest, segments = k.group :: k.name :: rest ∧
      rest.length ≤ 2 ∧ k.group ≠ "" ∧ k.name ≠ "" ∧ k.classifier = rest.getD 0 "" ∧
        k.packaging = packagingOf (rest.getD 1 "") := by
  constructor
  · intro h
    unfold ofSegments at h
    split at h
    next => exact absurd h (by simp)
    next => exact absurd h (by simp)
    next group rest hfew =>
      split at h
      next => exact absurd h (by simp)
      next hgroup =>
        cases rest with
        | nil => exact absurd h (by simp)
        | cons name rest =>
          dsimp only at h
          split at h
          next => exact absurd h (by simp)
          next hname =>
            cases h
            have hlength : rest.length ≤ 2 := by
              match rest, hfew with
              | [], _ => simp
              | [_], _ => simp
              | [_, _], _ => simp
              | a :: b :: c :: others, hfew => exact absurd rfl (hfew name a b c others)
            exact ⟨rest, rfl, hlength, hgroup, hname, rfl, rfl⟩
  · rintro ⟨rest, rfl, hlength, hgroup, hname, hclassifier, hpackaging⟩
    rcases k with ⟨group, name, classifier, packaging⟩
    dsimp only at *
    subst hclassifier hpackaging
    match rest, hlength with
    | [], _ => simp [ofSegments, hgroup, hname]
    | [_], _ => simp [ofSegments, hgroup, hname]
    | [_, _], _ => simp [ofSegments, hgroup, hname]

theorem exists_ofSegments_iff {segments : List String} :
    (∃ k, ofSegments segments = .ok k) ↔ WellShaped segments := by
  constructor
  · rintro ⟨k, hk⟩
    obtain ⟨rest, rfl, hlength, hgroup, hname, -⟩ := ofSegments_eq_ok_iff.1 hk
    refine ⟨by simp, ?_, by simp [hgroup, hname]⟩
    simp only [List.length_cons]
    omega
  · rintro ⟨htwo, hfour, hfirst⟩
    match segments, htwo with
    | group :: name :: rest, _ =>
      simp only [List.take_succ_cons, List.take_zero, List.mem_cons, List.not_mem_nil, or_false,
        forall_eq_or_imp, forall_eq] at hfirst
      simp only [List.length_cons] at hfour
      refine ⟨⟨group, name, rest.getD 0 "", packagingOf (rest.getD 1 "")⟩, ?_⟩
      exact ofSegments_eq_ok_iff.2 ⟨rest, rfl, by omega, hfirst.1, hfirst.2, rfl, rfl⟩

/-- Segments that name a key are those that its token shows and then some defaults, which can be
told from the segments alone. -/
theorem exists_padding {segments : List String} {k : Key} (h : ofSegments segments = .ok k) :
    ∃ padding, segments = k.shown ++ padding ∧ (padding = [] ↔ ¬ Padded segments) := by
  obtain ⟨rest, rfl, hlength, hgroup, hname, hclassifier, hpackaging⟩ := ofSegments_eq_ok_iff.1 h
  have hjar : ¬ (defaultPackaging = "") := by decide
  -- The padding is what is behind the last segment that differs from its default.
  match rest, hlength with
  | [], _ =>
    refine ⟨[], ?_⟩
    simp_all [shown, Padded, packagingOf]
  | [classifier], _ =>
    by_cases hnone : classifier = ""
    · refine ⟨[""], ?_⟩
      simp_all [shown, Padded, packagingOf]
    · refine ⟨[], ?_⟩
      simp_all [shown, Padded, packagingOf]
  | [classifier, packaging], _ =>
    by_cases hdefault : packaging = "" ∨ packaging = defaultPackaging
    · by_cases hnone : classifier = ""
      · refine ⟨["", packaging], ?_⟩
        rcases hdefault with rfl | rfl
        · simp_all [shown, Padded, packagingOf]
        · simp_all [shown, Padded, packagingOf]
      · refine ⟨[packaging], ?_⟩
        rcases hdefault with rfl | rfl
        · simp_all [shown, Padded, packagingOf]
        · simp_all [shown, Padded, packagingOf]
    · refine ⟨[], ?_⟩
      simp_all [shown, Padded, packagingOf]

/-! ## Texts -/

/-- Reading a token is reading its segments, and the fault shows the token as it was. -/
theorem parse_eq_ofParts (text : String) : parse text = ofParts (Text.split ':' text) := by
  rw [parse, ofParts, Text.join_split]

theorem ofSegments_of_parse {text : String} {k : Key} (h : parse text = .ok k) :
    ofSegments (Text.split ':' text) = .ok k :=
  mapError_eq_ok.1 h

theorem exists_parse_iff {text : String} :
    (∃ k, parse text = .ok k) ↔ WellShaped (Text.split ':' text) := by
  rw [← exists_ofSegments_iff]
  simp only [parse, mapError_eq_ok]

/-- A text for a key is its token or goes on behind it. -/
theorem parse_cases {text : String} {k : Key} (h : parse text = .ok k) :
    (¬ Padded (Text.split ':' text) ∧ text = k.token) ∨
      Padded (Text.split ':' text) ∧ ∃ defaults, text = k.token ++ (":" ++ defaults) := by
  obtain ⟨padding, hsegments, hpadding⟩ := exists_padding (ofSegments_of_parse h)
  have htext : text = Text.join ":" (k.shown ++ padding) := by
    rw [← hsegments, Text.join_split]
  by_cases hnone : padding = []
  · left
    refine ⟨hpadding.1 hnone, ?_⟩
    rw [htext, hnone, List.append_nil, ← token_eq_join]
  · right
    refine ⟨Decidable.not_not.1 fun hbare => hnone (hpadding.2 hbare), Text.join ":" padding, ?_⟩
    rw [htext, Text.join_append k.shown_ne_nil hnone, ← token_eq_join]

/-- The one shortest text for a key, by characters and by bytes. -/
def IsShortest (token : String) (k : Key) : Prop :=
  parse token = .ok k ∧ ∀ text, parse text = .ok k → text ≠ token →
    token.length < text.length ∧ token.utf8ByteSize < text.utf8ByteSize

theorem isShortest_token {k : Key} (h : k.Complete) : IsShortest k.token k := by
  refine ⟨parse_token h, ?_⟩
  intro text htext hne
  rcases parse_cases htext with ⟨_, hsame⟩ | ⟨_, defaults, hlonger⟩
  · exact absurd hsame hne
  · have hcharacters : text.length = k.token.length + (1 + defaults.length) := by
      rw [hlonger, String.length_append, String.length_append]
      rfl
    have hbytes : text.utf8ByteSize = k.token.utf8ByteSize + (1 + defaults.utf8ByteSize) := by
      rw [hlonger, String.utf8ByteSize_append, String.utf8ByteSize_append]
      rfl
    constructor
    · omega
    · omega

theorem token_eq_iff {text : String} {k : Key} (h : parse text = .ok k) :
    k.token = text ↔ ¬ Padded (Text.split ':' text) := by
  rcases parse_cases h with ⟨hbare, hsame⟩ | ⟨hpadded, defaults, hlonger⟩
  · exact iff_of_true hsame.symm hbare
  · refine iff_of_false ?_ (fun hbare => hbare hpadded)
    intro hsame
    have hlength := congrArg String.length (hsame.trans hlonger)
    rw [String.length_append, String.length_append] at hlength
    have hone : ":".length = 1 := rfl
    omega

/-- Tokens tell complete keys apart. -/
theorem token_injective {j k : Key} (hj : j.Complete) (hk : k.Complete) :
    j = k ↔ j.token = k.token := by
  constructor
  · intro h
    rw [h]
  · intro h
    have hsame : Except.ok j = (Except.ok k : Except Fault Key) := by
      rw [← parse_token hj, ← parse_token hk, h]
    exact Except.ok.inj hsame

/-- Tokens are canonical, and they lose nothing of a key that passes its check:

1. exactly these keys are read back from their tokens;
2. a text names a key exactly if it has two to four segments, the first two of them not empty;
3. any other text is refused with a fault that shows it as it is;
4. the key that a text names is complete, its token is the one shortest text for it, and the text is
   this token unless its last segment is empty or its fourth one spells out the default;
5. two texts name the same key exactly if the tokens of their keys are the same. -/
theorem token_canonical :
    (∀ (k : Key) (argument : String), parse k.token = .ok k ↔ k.check argument = .ok ()) ∧
      (∀ text, (∃ k, parse text = .ok k) ↔ WellShaped (Text.split ':' text)) ∧
      (∀ text fault, parse text = .error fault → ∃ reason, fault = .malformedToken text reason) ∧
      (∀ text k, parse text = .ok k →
        k.Complete ∧ IsShortest k.token k ∧ (k.token = text ↔ ¬ Padded (Text.split ':' text))) ∧
      ∀ text other j k, parse text = .ok j → parse other = .ok k →
        (j = k ↔ j.token = k.token) := by
  refine ⟨?_, fun _ => exists_parse_iff, ?_, ?_, ?_⟩
  · intro k argument
    rw [check_eq_ok_iff]
    exact ⟨complete_of_parse, parse_token⟩
  · intro text fault h
    rw [parse_eq_ofParts, ofParts, mapError_eq_error, Text.join_split] at h
    rcases h with ⟨flaw, _, rfl⟩
    exact ⟨flaw.message, rfl⟩
  · intro text k h
    have hcomplete : k.Complete := complete_of_parse h
    exact ⟨hcomplete, isShortest_token hcomplete, token_eq_iff h⟩
  · intro text other j k hj hk
    exact token_injective (complete_of_parse hj) (complete_of_parse hk)

/-- A default packaging that is spelled out, a classifier with the delimiter, and no name. -/
theorem token_canonical_spelled_out :
    parse "g:n::jar" = .ok (plain "g" "n") ∧ (plain "g" "n").token ≠ "g:n::jar" ∧
      (plain "g" "n").token.length < "g:n::jar".length ∧
      parse (Key.token ⟨"g", "n", "x:y", "jar"⟩) ≠ .ok ⟨"g", "n", "x:y", "jar"⟩ ∧
      ∃ reason, parse "g::x" = .error (.malformedToken "g::x" reason) := by
  rcases token_canonical with ⟨hlossless, _, hrefused, hnamed, _⟩
  have hspelled : parse "g:n::jar" = .ok (plain "g" "n") := rfl
  rcases hnamed _ _ hspelled with ⟨_, hshortest, htoken⟩
  have hne : (plain "g" "n").token ≠ "g:n::jar" := by
    rw [ne_eq, htoken]
    decide
  have hdelimiter : parse (Key.token ⟨"g", "n", "x:y", "jar"⟩) ≠ .ok ⟨"g", "n", "x:y", "jar"⟩ := by
    rw [ne_eq, hlossless _ "argument", check_eq_ok_iff]
    decide
  have hunnamed : parse "g::x" = .error (.malformedToken "g::x" "artifact name is empty") := rfl
  rcases hrefused _ _ hunnamed with ⟨reason, hreason⟩
  rw [hreason] at hunnamed
  exact ⟨hspelled, hne, (hshortest.2 _ hspelled hne.symm).1, hdelimiter, reason, hunnamed⟩

end Classpath.Key
