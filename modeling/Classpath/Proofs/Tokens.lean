import Classpath.Artifact
import Classpath.Proofs.Outcomes

namespace Classpath

/-! # Tokens and completeness

The reader of tokens and the checks of coordinates are written apart, and they agree:

1. **Segments**: joining undoes cutting, and cutting undoes joining segments that are free of the
   separator.
2. **Keys**: a key is complete exactly if it is read back from its token, and every token that names
   a key names a complete one.
3. **Artifacts**: every token that names an artifact names a resolved one, so no check ever refuses
   what came from a token. -/

/-! ## Segments -/

namespace Text

/-- Segments are free of the separator. -/
theorem not_mem_of_mem_segments {separator : Char} {cs s : List Char}
    (h : s ∈ segments separator cs) : separator ∉ s := by
  induction cs generalizing s with
  | nil =>
    have hs : s = [] := by simpa [segments] using h
    simp [hs]
  | cons c cs ih =>
    rw [segments] at h
    split at h
    next =>
      rcases List.mem_cons.1 h with rfl | h
      · simp
      · exact ih h
    next hne =>
      -- The character goes to the first segment of the others.
      cases hcut : segments separator cs with
      | nil => exact absurd hcut (segments_ne_nil separator cs)
      | cons first others =>
        rw [hcut] at h ih
        rcases List.mem_cons.1 h with rfl | h
        · intro hmem
          rcases List.mem_cons.1 hmem with heq | hmem
          · exact hne heq.symm
          · exact ih List.mem_cons_self hmem
        · exact ih (List.mem_cons_of_mem first h)

theorem segments_of_not_mem {separator : Char} {s : List Char} (h : separator ∉ s) :
    segments separator s = [s] := by
  induction s with
  | nil => rfl
  | cons c s ih =>
    have hne : c ≠ separator := by
      rintro rfl
      exact h List.mem_cons_self
    rw [segments, if_neg hne, ih fun hs => h (List.mem_cons_of_mem c hs)]

/-- A separator parts the segments before it from those behind it. -/
theorem segments_cut (separator : Char) (cs rest : List Char) :
    segments separator (cs ++ separator :: rest) =
      segments separator cs ++ segments separator rest := by
  induction cs with
  | nil => simp [segments]
  | cons c cs ih =>
    rw [List.cons_append, segments, segments, ih]
    by_cases hc : c = separator
    · simp [hc]
    · cases hcut : segments separator cs with
      | nil => exact absurd hcut (segments_ne_nil separator cs)
      | cons first others => simp [hc]

theorem segments_append {separator : Char} {s : List Char} (h : separator ∉ s)
    (rest : List Char) :
    segments separator (s ++ separator :: rest) = s :: segments separator rest := by
  rw [segments_cut, segments_of_not_mem h, List.singleton_append]

/-- Cutting undoes joining. -/
theorem segments_joined {separator : Char} {parts : List (List Char)} (hne : parts ≠ [])
    (h : ∀ s ∈ parts, separator ∉ s) : segments separator (joined [separator] parts) = parts := by
  induction parts with
  | nil => exact absurd rfl hne
  | cons s ss ih =>
    have hs : separator ∉ s := h s List.mem_cons_self
    cases ss with
    | nil => exact segments_of_not_mem hs
    | cons t ts =>
      have htail := ih (by simp) fun x hx => h x (List.mem_cons_of_mem s hx)
      have hjoined : joined [separator] (s :: t :: ts) =
          s ++ separator :: joined [separator] (t :: ts) := by
        simp [joined]
      rw [hjoined, segments_append hs, htail]

theorem map_ofList_toList (parts : List String) :
    (parts.map String.toList).map String.ofList = parts := by
  simp [Function.comp_def]

/-- Cutting a string undoes joining strings that are free of the separator. -/
theorem split_join_by {separator : Char} {glue : String} (hglue : glue.toList = [separator])
    {parts : List String} (hne : parts ≠ []) (h : ∀ s ∈ parts, separator ∉ s.toList) :
    split separator (join glue parts) = parts := by
  have hparts : ∀ s ∈ parts.map String.toList, separator ∉ s := by
    intro s hs
    rcases List.mem_map.1 hs with ⟨part, hpart, rfl⟩
    exact h part hpart
  have hjoin : (join glue parts).toList = joined [separator] (parts.map String.toList) := by
    simp [join, hglue]
  rw [split, hjoin, segments_joined (by simpa using hne) hparts, map_ofList_toList]

theorem split_join {parts : List String} (hne : parts ≠ [])
    (h : ∀ s ∈ parts, ':' ∉ s.toList) : split ':' (join ":" parts) = parts :=
  split_join_by rfl hne h

/-- Joining undoes cutting. -/
theorem join_split_by {separator : Char} {glue : String} (hglue : glue.toList = [separator])
    (text : String) : join glue (split separator text) = text := by
  have hparts : (split separator text).map String.toList = segments separator text.toList := by
    simp [split, Function.comp_def]
  rw [join, hparts, hglue, joined_segments, String.ofList_toList]

theorem join_split (text : String) : join ":" (split ':' text) = text :=
  join_split_by rfl text

/-- A string that is put together at a separator is cut there. -/
theorem split_cut {separator : Char} {glue : String} (hglue : glue.toList = [separator])
    (s rest : String) : split separator (s ++ glue ++ rest) =
      split separator s ++ split separator rest := by
  have hchars : (s ++ glue ++ rest).toList = s.toList ++ separator :: rest.toList := by
    simp [hglue]
  rw [split, hchars, segments_cut, List.map_append, split, split]

theorem joined_cons {separator s : List Char} {parts : List (List Char)} (h : parts ≠ []) :
    joined separator (s :: parts) = s ++ (separator ++ joined separator parts) := by
  cases parts with
  | nil => exact absurd rfl h
  | cons t ts => simp [joined]

theorem joined_eq_intercalate (separator : List Char) (parts : List (List Char)) :
    joined separator parts = separator.intercalate parts := by
  induction parts with
  | nil => rfl
  | cons s ss ih =>
    cases ss with
    | nil => simp [joined]
    | cons t ts => rw [joined_cons (by simp), ih, List.intercalate_cons_cons, List.append_assoc]

theorem join_eq_intercalate (separator : String) (parts : List String) :
    join separator parts = separator.intercalate parts := by
  rw [← String.toList_inj, join, String.toList_ofList, String.toList_intercalate,
    joined_eq_intercalate]

theorem joined_append {separator : List Char} {parts others : List (List Char)}
    (hparts : parts ≠ []) (hothers : others ≠ []) :
    joined separator (parts ++ others) =
      joined separator parts ++ (separator ++ joined separator others) := by
  induction parts with
  | nil => exact absurd rfl hparts
  | cons s ss ih =>
    by_cases hss : ss = []
    · subst hss
      exact joined_cons hothers
    · have htail := ih hss
      have hne : ss ++ others ≠ [] := by simp [hss]
      rw [List.cons_append, joined_cons hne, htail, joined_cons hss]
      simp only [List.append_assoc]

theorem join_append {separator : String} {parts others : List String} (hparts : parts ≠ [])
    (hothers : others ≠ []) :
    join separator (parts ++ others) =
      join separator parts ++ (separator ++ join separator others) := by
  rw [← String.toList_inj]
  simp only [join, List.map_append, String.toList_append, String.toList_ofList]
  exact joined_append (by simpa using hparts) (by simpa using hothers)

theorem not_mem_of_mem_split {separator : Char} {text s : String} (h : s ∈ split separator text) :
    separator ∉ s.toList := by
  rcases List.mem_map.1 h with ⟨cs, hcs, rfl⟩
  rw [String.toList_ofList]
  exact not_mem_of_mem_segments hcs

end Text

/-! ## Keys -/

namespace Key

/-- The coordinates that the token of a key shows. -/
def shown (k : Key) : List String :=
  if k.packaging ≠ defaultPackaging then [k.group, k.name, k.classifier, k.packaging]
  else if k.classifier ≠ "" then [k.group, k.name, k.classifier]
  else [k.group, k.name]

theorem token_eq_join (k : Key) : k.token = Text.join ":" k.shown := by
  rw [← String.toList_inj, token, shown]
  split
  · simp [Text.join, Text.joined, toString]
  · split
    · simp [Text.join, Text.joined, toString]
    · simp [Text.join, Text.joined, toString]

theorem shown_ne_nil (k : Key) : k.shown ≠ [] := by
  rw [shown]
  split
  · simp
  · split <;> simp

theorem Complete.shown_free {k : Key} (h : k.Complete) : ∀ s ∈ k.shown, ':' ∉ s.toList := by
  intro s hs
  refine h.2.2.2 s ?_
  rw [shown] at hs
  simp only [coordinates]
  split at hs
  · exact hs
  · split at hs
    · simp only [List.mem_cons, List.not_mem_nil, or_false] at hs ⊢
      rcases hs with hs | hs | hs <;> simp [hs]
    · simp only [List.mem_cons, List.not_mem_nil, or_false] at hs ⊢
      rcases hs with hs | hs <;> simp [hs]

/-- What the token leaves out has its default. -/
theorem ofSegments_shown {k : Key} (h : k.Complete) : ofSegments k.shown = .ok k := by
  rcases h with ⟨hgroup, hname, hpackaging, _⟩
  rw [shown]
  split
  · simp [ofSegments, hgroup, hname, packagingOf, hpackaging]
  · next hdefault =>
    have hpackaging : k.packaging = defaultPackaging := Decidable.not_not.1 hdefault
    split
    · simp [ofSegments, hgroup, hname, packagingOf, ← hpackaging]
    · next hnone =>
      have hclassifier : k.classifier = "" := Decidable.not_not.1 hnone
      have hkey : k = ⟨k.group, k.name, "", defaultPackaging⟩ := by
        rw [← hpackaging]
        cases k
        simpa using hclassifier
      simpa [ofSegments, hgroup, hname, packagingOf] using hkey.symm

/-- A complete key is read back from its token. -/
theorem parse_token {k : Key} (h : k.Complete) : parse k.token = .ok k := by
  rw [parse, token_eq_join, Text.split_join k.shown_ne_nil h.shown_free, ofSegments_shown h]
  rfl

theorem packagingOf_ne (segment : String) : packagingOf segment ≠ "" := by
  rw [packagingOf]
  split
  · decide
  · assumption

theorem complete_of_ofSegments {parts : List String} {k : Key}
    (hparts : ∀ s ∈ parts, ':' ∉ s.toList) (h : ofSegments parts = .ok k) : k.Complete := by
  -- A segment that is not there counts as empty, and so it is free of the separator too.
  have hmissing (rest : List String) (index : Nat) (hrest : ∀ s ∈ rest, ':' ∉ s.toList) :
      ':' ∉ (rest.getD index "").toList := by
    rw [List.getD_eq_getElem?_getD]
    cases hindex : rest[index]? with
    | none => simp
    | some s => exact hrest s (List.mem_of_getElem? hindex)
  unfold ofSegments at h
  split at h
  next => exact absurd h (by simp)
  next => exact absurd h (by simp)
  next group rest _ =>
    split at h
    next => exact absurd h (by simp)
    next hgroup =>
      cases rest with
      | nil => exact absurd h (by simp)
      | cons name rest =>
        dsimp only at h
        split at h
        next => exact absurd h (by simp)
        next hname =>
          cases h
          refine ⟨hgroup, hname, packagingOf_ne _, ?_⟩
          have hrest : ∀ s ∈ rest, ':' ∉ s.toList := fun s hs =>
            hparts s (List.mem_cons_of_mem _ (List.mem_cons_of_mem _ hs))
          intro c hc
          simp only [coordinates, List.mem_cons, List.not_mem_nil, or_false] at hc
          rcases hc with rfl | rfl | rfl | rfl
          · exact hparts _ List.mem_cons_self
          · exact hparts _ (List.mem_cons_of_mem _ List.mem_cons_self)
          · exact hmissing rest 0 hrest
          · rw [packagingOf]
            split
            · decide
            · exact hmissing rest 1 hrest

/-- Whatever a token names is complete. -/
theorem complete_of_parse {t : String} {k : Key} (h : parse t = .ok k) : k.Complete :=
  complete_of_ofSegments (fun _ hs => Text.not_mem_of_mem_split hs) (mapError_eq_ok.1 h)

/-- The check of a key lets through what is complete, and nothing else. -/
theorem check_eq_ok_iff {argument : String} {k : Key} :
    k.check argument = .ok () ↔ k.Complete := by
  rw [check, ← defect?_eq_none_iff]
  cases k.defect? <;> simp

end Key

/-! ## Artifacts -/

namespace Artifact

theorem mem_of_splitVersion {segments keySegments : List String} {version : String}
    (h : splitVersion segments = some (keySegments, version)) :
    ∀ s ∈ keySegments, s = "" ∨ s ∈ segments := by
  unfold splitVersion at h
  split at h
  · cases h
    grind
  · cases h
    grind
  · cases h
    grind
  · exact absurd h (by simp)

theorem resolved_of_ofSegments {segments : List String} {a : Artifact}
    (hsegments : ∀ s ∈ segments, ':' ∉ s.toList) (h : ofSegments segments = .ok a) :
    a.Resolved := by
  unfold ofSegments at h
  split at h
  next => exact absurd h (by simp)
  next keySegments version hsplit =>
    split at h
    next => exact absurd h (by simp)
    next hversion =>
      split at h
      next => exact absurd h (by simp)
      next key hkey =>
        cases h
        refine ⟨Key.complete_of_ofSegments (fun s hs => ?_) hkey, hversion⟩
        rcases mem_of_splitVersion hsplit s hs with rfl | hs
        · decide
        · exact hsegments s hs

/-- Whatever a token names is resolved. -/
theorem resolved_of_parse {t : String} {a : Artifact} (h : parse t = .ok a) : a.Resolved :=
  resolved_of_ofSegments (fun _ hs => Text.not_mem_of_mem_split hs) (mapError_eq_ok.1 h)

theorem check_eq_ok_iff {argument : String} {a : Artifact} :
    a.check argument = .ok () ↔ a.Resolved := by
  have hkey : a.key.check argument = .ok () ↔ a.key.Complete := Key.check_eq_ok_iff
  rw [check, Resolved, ← hkey]
  cases a.key.check argument with
  | error fault => simp
  | ok _ => by_cases hversion : a.version = "" <;> simp [hversion]

end Artifact

end Classpath
