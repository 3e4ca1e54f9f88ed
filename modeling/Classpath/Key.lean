import Classpath.Fault
import Classpath.Text.Segments

namespace Classpath

/-! # Artifact keys

A key names an artifact without its version, by group, name, classifier and packaging. All
classification and exclusion goes by keys, so a rule for a key covers every version.

The token of a key is `group:name`, `group:name:classifier` or `group:name:classifier:packaging`;
what is left out at the end has its default. Tokens say nothing about a key with an empty group,
name or packaging or with a `:` in a coordinate: a key without these faults is `Key.Complete`. -/

structure Key where
  group : String
  name : String
  classifier : String
  packaging : String
deriving Repr, DecidableEq, Inhabited

namespace Key

/-- The packaging of an artifact that states none. -/
def defaultPackaging : String := "jar"

/-- The key of a plain jar without classifier. -/
def plain (group name : String) : Key :=
  ⟨group, name, "", defaultPackaging⟩

def coordinates (k : Key) : List String :=
  [k.group, k.name, k.classifier, k.packaging]

/-! ## Order

Keys are ordered by group, then name, classifier and packaging, each by code points. -/

instance : Ord Key := ⟨fun a b => compare a.coordinates b.coordinates⟩

instance : Std.TransOrd Key :=
  inferInstanceAs (Std.TransCmp (compareOn coordinates))

theorem coordinates_injective {a b : Key} (h : a.coordinates = b.coordinates) : a = b := by
  cases a; cases b
  simpa [coordinates] using h

instance : Std.LawfulEqOrd Key where
  compare_self {a} :=
    (Std.ReflCmp.compare_self : compare a.coordinates a.coordinates = .eq)
  eq_of_compare h := coordinates_injective (Std.LawfulEqOrd.eq_of_compare h)

/-! ## Tokens -/

/-- Why a list of segments names no key. -/
inductive SegmentFlaw where
  | none
  | tooMany (found : Nat)
  | emptyGroup
  | emptyName
deriving Repr, DecidableEq

def SegmentFlaw.message : SegmentFlaw → String
  | .none => "no segments"
  | .tooMany found =>
    s!"expected at most 4 segments (group:name:classifier:type), found {found}"
  | .emptyGroup => "artifact group is empty"
  | .emptyName => "artifact name is empty"

/-- The packaging that a segment stands for: an empty one leaves the default. -/
def packagingOf (segment : String) : String :=
  if segment = "" then defaultPackaging else segment

/-- The key named by one to four segments. -/
def ofSegments (parts : List String) : Except SegmentFlaw Key :=
  match parts with
  | [] => .error .none
  | _ :: _ :: _ :: _ :: _ :: _ => .error (.tooMany parts.length)
  | group :: rest =>
    if group = "" then .error .emptyGroup
    else
      match rest with
      | [] => .error .emptyName
      | name :: rest =>
        if name = "" then .error .emptyName
        else .ok ⟨group, name, rest.getD 0 "", packagingOf (rest.getD 1 "")⟩

/-- The key named by segments, where the fault shows them as one token. -/
def ofParts (parts : List String) : Except Fault Key :=
  (ofSegments parts).mapError fun flaw => .malformedToken (Text.join ":" parts) flaw.message

/-- The key named by a token. -/
def parse (token : String) : Except Fault Key :=
  (ofSegments (Text.split ':' token)).mapError fun flaw => .malformedToken token flaw.message

/-- The token of a key, without the segments at the end that have their default. -/
def token (k : Key) : String :=
  if k.packaging ≠ defaultPackaging then
    s!"{k.group}:{k.name}:{k.classifier}:{k.packaging}"
  else if k.classifier ≠ "" then s!"{k.group}:{k.name}:{k.classifier}"
  else s!"{k.group}:{k.name}"

/-! ## Completeness -/

/-- Group, name and packaging are there, and no coordinate holds the delimiter. -/
def Complete (k : Key) : Prop :=
  k.group ≠ "" ∧ k.name ≠ "" ∧ k.packaging ≠ "" ∧ ∀ c ∈ k.coordinates, ':' ∉ c.toList

instance (k : Key) : Decidable k.Complete :=
  inferInstanceAs (Decidable (_ ∧ _ ∧ _ ∧ _))

/-- What makes a key incomplete. -/
inductive Defect where
  | emptyGroupOrName
  | emptyPackaging
  | delimiterIn (coordinate : String)
deriving Repr, DecidableEq

/-- The first defect of a key, in the order in which they are reported. -/
def defect? (k : Key) : Option Defect :=
  if k.group = "" ∨ k.name = "" then some .emptyGroupOrName
  else if k.packaging = "" then some .emptyPackaging
  else (k.coordinates.find? fun c => ':' ∈ c.toList).map .delimiterIn

theorem defect?_eq_none_iff {k : Key} : k.defect? = none ↔ k.Complete := by
  unfold defect? Complete
  split
  next h => simp; grind
  next h =>
    split
    next hp => simp [hp]
    next hp => simp only [Option.map_eq_none_iff, List.find?_eq_none]; grind

def Defect.message (k : Key) : Defect → String
  | .emptyGroupOrName => s!"artifact key '{k.token}' has an empty group or name"
  | .emptyPackaging => s!"artifact key '{k.token}' has an empty type"
  | .delimiterIn coordinate =>
    s!"artifact key coordinate '{coordinate}' contains the ':' delimiter"

/-- Refuses an incomplete key, naming the argument it was given for. -/
def check (argument : String) (k : Key) : Except Fault Unit :=
  match k.defect? with
  | none => .ok ()
  | some defect => .error (.invalidArgument argument (defect.message k))

end Key

end Classpath
