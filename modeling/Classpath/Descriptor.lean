import Classpath.Event
import Classpath.Key
import Classpath.Properties

namespace Classpath

/-! # Extension descriptors

A descriptor is a property map. Four of its properties hold comma-separated lists of key tokens,
each for one class of keys; other properties mean nothing here. A descriptor counts as a whole: one
malformed token and none of its keys is used. -/

inductive Classification where
  | parentFirst
  | runnerParentFirst
  | excluded
  | lesserPriority
deriving Repr, DecidableEq

namespace Classification

/-- The classes in the order in which their properties are read. -/
def all : List Classification :=
  [.parentFirst, .runnerParentFirst, .excluded, .lesserPriority]

/-- The property that lists the keys of a class. -/
def property : Classification → String
  | .parentFirst => "parent-first-artifacts"
  | .runnerParentFirst => "runner-parent-first-artifacts"
  | .excluded => "excluded-artifacts"
  | .lesserPriority => "lesser-priority-artifacts"

end Classification

namespace Descriptor

/-! ## Lists of tokens -/

/-- The tokens of a list: the trimmed parts between the commas that are not empty. -/
def tokens (list : String) : List String :=
  (((Text.segments ',' list.toList).map Text.trim).filter (· ≠ [])).map String.ofList

/-- The keys of some tokens, or the first token that names none. -/
def readKeys : List String → Except (String × Fault) (List Key)
  | [] => .ok []
  | token :: rest =>
    match Key.parse token with
    | .error fault => .error (token, fault)
    | .ok key =>
      match readKeys rest with
      | .error flaw => .error flaw
      | .ok keys => .ok (key :: keys)

/-! ## Whole descriptors -/

/-- Why a descriptor is rejected. -/
structure Rejection where
  property : String
  token : String
  fault : Fault
deriving Repr, DecidableEq

/-- A key with the class that a descriptor gives it. -/
abbrev Assignment := Classification × Key

/-- The assignments that one property makes. -/
def readProperty (properties : PropertyMap) (c : Classification) :
    Except Rejection (List Assignment) :=
  match properties.get? c.property with
  | none => .ok []
  | some list =>
    match readKeys (tokens list) with
    | .error (token, fault) => .error ⟨c.property, token, fault⟩
    | .ok keys => .ok (keys.map fun key => (c, key))

/-- The assignments of some properties in turn, or the first rejection. -/
def readProperties (properties : PropertyMap) :
    List Classification → Except Rejection (List Assignment)
  | [] => .ok []
  | c :: cs =>
    match readProperty properties c with
    | .error rejection => .error rejection
    | .ok here =>
      match readProperties properties cs with
      | .error rejection => .error rejection
      | .ok others => .ok (here ++ others)

/-- All assignments of a descriptor, in the order of the classes and of the lists. -/
def assignments (properties : PropertyMap) : Except Rejection (List Assignment) :=
  readProperties properties Classification.all

end Descriptor

/-! ## Diagnostics -/

/-- The record of a descriptor that was rejected. -/
structure Diagnostic where
  source : String
  property : String
  token : String
  fault : Fault
deriving Repr, DecidableEq

namespace Diagnostic

def ofRejection (source : String) (r : Descriptor.Rejection) : Diagnostic :=
  ⟨source, r.property, r.token, r.fault⟩

def display (d : Diagnostic) : String :=
  s!"extension '{d.source}' was ignored: {d.fault.message} (in {d.property})"

/-- The warning that goes with the record. -/
def event (d : Diagnostic) : Event :=
  ⟨.warn, s!"Ignoring descriptor of extension {d.source}: {d.fault.message} (in {d.property})"⟩

end Diagnostic

end Classpath
