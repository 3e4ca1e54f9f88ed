import Classpath.Assembly
import Classpath.Proofs.Properties.Lines
import Classpath.Proofs.Tokens
import Mathlib.Data.List.Forall2
import Mathlib.Data.List.TakeWhile

namespace Classpath

/-! # Lists of tokens

What the lists of a descriptor say, told from their texts alone.

1. **Parts**: a text is its parts with a separator between each two neighbours, and a part is a
   token with blanks around it.
2. **Lists**: commas part a list, and a part of blanks holds no token.
3. **Descriptors**: four properties hold lists, each for one set of keys. -/

namespace Text

/-! ## Parts -/

/-- What is left of a part without the blanks around it. -/
def Strips (part token : List Char) : Prop :=
  Trimmed token ∧ ∃ before behind, part = before ++ token ++ behind ∧
    (∀ c ∈ before, isBlank c = true) ∧ ∀ c ∈ behind, isBlank c = true

theorem trimStart_split (cs : List Char) :
    ∃ before, cs = before ++ trimStart cs ∧ ∀ c ∈ before, isBlank c = true := by
  refine ⟨cs.takeWhile isBlank, List.takeWhile_append_dropWhile.symm, ?_⟩
  intro c hc
  exact List.mem_takeWhile_imp hc

theorem trimEnd_split (cs : List Char) :
    ∃ behind, cs = trimEnd cs ++ behind ∧ ∀ c ∈ behind, isBlank c = true := by
  rcases trimStart_split cs.reverse with ⟨before, hsplit, hblank⟩
  refine ⟨before.reverse, ?_, ?_⟩
  · rw [trimEnd, ← List.reverse_append, ← List.reverse_inj, List.reverse_reverse]
    exact hsplit
  · intro c hc
    exact hblank c (List.mem_reverse.1 hc)

theorem head?_trimStart (cs : List Char) :
    ∀ c, (trimStart cs).head? = some c → isBlank c = false := by
  intro c hc
  have hnot := List.head?_dropWhile_not isBlank cs
  rw [trimStart] at hc
  rw [hc] at hnot
  simpa using hnot

theorem getLast?_trimEnd (cs : List Char) :
    ∀ c, (trimEnd cs).getLast? = some c → isBlank c = false := by
  intro c hc
  rw [trimEnd, List.getLast?_reverse] at hc
  exact head?_trimStart cs.reverse c hc

theorem trimmed_trim (cs : List Char) : Trimmed (trim cs) := by
  constructor
  · intro c hc
    rcases trimEnd_split (trimStart cs) with ⟨behind, hsplit, -⟩
    refine head?_trimStart cs c ?_
    rw [hsplit, List.head?_append, ← trim, hc]
    rfl
  · exact getLast?_trimEnd (trimStart cs)

/-- Trimming strips, and nothing else does. -/
theorem strips_iff {part token : List Char} : Strips part token ↔ trim part = token := by
  constructor
  · rintro ⟨htrimmed, before, behind, rfl, hbefore, hbehind⟩
    exact trim_between htrimmed hbefore hbehind
  · rintro rfl
    refine ⟨trimmed_trim part, ?_⟩
    rcases trimStart_split part with ⟨before, hstart, hbefore⟩
    rcases trimEnd_split (trimStart part) with ⟨behind, hend, hbehind⟩
    refine ⟨before, behind, ?_, hbefore, hbehind⟩
    rw [trim, List.append_assoc, ← hend]
    exact hstart

end Text

namespace Descriptor

/-! ## Lists -/

/-- The tokens that a list enumerates, in order: commas part the list, a part without the blanks
around it is a token, and where nothing is left there is none. -/
def Enumerates (list : String) (ts : List String) : Prop :=
  ∃ parts stripped : List (List Char),
    list.toList = [','].intercalate parts ∧ parts ≠ [] ∧ (∀ part ∈ parts, ',' ∉ part) ∧
      List.Forall₂ Text.Strips parts stripped ∧
        ts.map String.toList = stripped.filter (· ≠ [])

theorem forall₂_strips_iff {parts stripped : List (List Char)} :
    List.Forall₂ Text.Strips parts stripped ↔ parts.map Text.trim = stripped := by
  constructor
  · intro h
    induction h with
    | nil => rfl
    | cons hpart _ ih => rw [List.map_cons, ih, Text.strips_iff.1 hpart]
  · rintro rfl
    rw [List.forall₂_map_right_iff, List.forall₂_same]
    exact fun part _ => Text.strips_iff.2 rfl

/-- There is one way to enumerate the tokens of a list. -/
theorem enumerates_iff {list : String} {ts : List String} :
    Enumerates list ts ↔ tokens list = ts := by
  have hchars : tokens list = ts ↔
      ((Text.segments ',' list.toList).map Text.trim).filter (· ≠ []) = ts.map String.toList := by
    rw [tokens]
    constructor
    · rintro rfl
      simp [Function.comp_def]
    · intro h
      rw [h, Text.map_ofList_toList]
  rw [hchars]
  constructor
  · rintro ⟨parts, stripped, hlist, hne, hfree, hstripped, hts⟩
    rw [hlist, ← Text.joined_eq_intercalate, Text.segments_joined hne hfree,
      forall₂_strips_iff.1 hstripped, hts]
  · intro h
    refine ⟨Text.segments ',' list.toList, _, ?_, Text.segments_ne_nil ',' _, ?_,
      forall₂_strips_iff.2 rfl, h.symm⟩
    · rw [← Text.joined_eq_intercalate, Text.joined_segments]
    · intro part hpart
      exact Text.not_mem_of_mem_segments hpart

/-! ## Descriptors -/

/-- The properties that hold lists, in the order in which they are read, and the sets for the keys
of their tokens. -/
def classLists : List (String × KeyGroup) :=
  [("parent-first-artifacts", .parentFirst),
   ("runner-parent-first-artifacts", .runnerParentFirst),
   ("excluded-artifacts", .excluded),
   ("lesser-priority-artifacts", .lesserPriority)]

theorem classLists_eq : classLists = Classification.all.map fun c => (c.property, c.group) :=
  rfl

/-- The tokens under a property of a descriptor; a property that is not there lists none. -/
def Lists (properties : PropertyMap) (property : String) (ts : List String) : Prop :=
  properties.get? property = none ∧ ts = [] ∨
    ∃ list, properties.get? property = some list ∧ Enumerates list ts

/-- The tokens that the reader of a descriptor finds for a class of keys. -/
def listed (properties : PropertyMap) (c : Classification) : List String :=
  match properties.get? c.property with
  | none => []
  | some list => tokens list

theorem lists_iff {properties : PropertyMap} {c : Classification} {ts : List String} :
    Lists properties c.property ts ↔ listed properties c = ts := by
  rw [Lists, listed]
  cases properties.get? c.property with
  | none => simp [eq_comm]
  | some list => simp [enumerates_iff]

end Descriptor

end Classpath
