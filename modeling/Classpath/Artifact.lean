import Classpath.Key

namespace Classpath

/-! # Artifacts and dependencies

An artifact is a key with a version. Its token puts the version last and leaves the classifier out
when it is empty: `group:name:version`, `group:name:packaging:version` or
`group:name:classifier:packaging:version`. A dependency is an artifact as the resolver delivered it,
with its scope and two flags. -/

structure Artifact where
  key : Key
  version : String
deriving Repr, DecidableEq, Inhabited

namespace Artifact

/-- The parts by which artifacts are ordered: those of the key, then the version. -/
def parts (a : Artifact) : List String :=
  a.key.coordinates ++ [a.version]

instance : Ord Artifact := ⟨fun a b => compare a.parts b.parts⟩

/-- The artifacts in increasing order, as often as they were there. -/
def sorted (artifacts : List Artifact) : List Artifact :=
  artifacts.mergeSort fun a b => (compare a b).isLE

/-! ## Tokens -/

/-- Why a token names no artifact. -/
inductive TokenFlaw where
  | shape
  | emptyVersion
  | key (flaw : Key.SegmentFlaw)
deriving Repr, DecidableEq

def TokenFlaw.message : TokenFlaw → String
  | .shape => "expected group:name[[:classifier]:type]:version"
  | .emptyVersion => "artifact version is empty"
  | .key flaw => flaw.message

/-- The segments of the key and the version, told apart by how many segments there are. -/
def splitVersion : List String → Option (List String × String)
  | [group, name, version] => some ([group, name], version)
  | [group, name, packaging, version] => some ([group, name, "", packaging], version)
  | [group, name, classifier, packaging, version] =>
    some ([group, name, classifier, packaging], version)
  | _ => none

def ofSegments (segments : List String) : Except TokenFlaw Artifact :=
  match splitVersion segments with
  | none => .error .shape
  | some (keySegments, version) =>
    if version = "" then .error .emptyVersion
    else
      match Key.ofSegments keySegments with
      | .error flaw => .error (.key flaw)
      | .ok key => .ok ⟨key, version⟩

/-- The artifact named by a token. -/
def parse (token : String) : Except Fault Artifact :=
  (ofSegments (Text.split ':' token)).mapError fun flaw => .malformedToken token flaw.message

def token (a : Artifact) : String :=
  if a.key.classifier = "" then
    s!"{a.key.group}:{a.key.name}:{a.key.packaging}:{a.version}"
  else s!"{a.key.group}:{a.key.name}:{a.key.classifier}:{a.key.packaging}:{a.version}"

/-! ## Resolution -/

/-- The key is complete and there is a version. -/
def Resolved (a : Artifact) : Prop :=
  a.key.Complete ∧ a.version ≠ ""

instance (a : Artifact) : Decidable a.Resolved :=
  inferInstanceAs (Decidable (_ ∧ _))

/-- Refuses an artifact that is not resolved, naming the argument it was given for. -/
def check (argument : String) (a : Artifact) : Except Fault Unit :=
  match a.key.check argument with
  | .error fault => .error fault
  | .ok () =>
    if a.version = "" then
      .error (.invalidArgument argument s!"artifact '{a.key.token}' has no version")
    else .ok ()

end Artifact

/-! ## Dependencies -/

structure Dependency where
  artifact : Artifact
  scope : String
  direct : Bool
  isOptional : Bool
deriving Repr, DecidableEq, Inhabited

namespace Dependency

/-- The scope of a dependency that states none. -/
def defaultScope : String := "compile"

/-- A dependency that the application declares itself. -/
def ofArtifact (a : Artifact) : Dependency :=
  ⟨a, defaultScope, true, false⟩

def key (d : Dependency) : Key :=
  d.artifact.key

/-- The artifact, followed by the scope and the flags that are out of the ordinary. -/
def display (d : Dependency) : String :=
  let transitive := if d.direct then "" else ", transitive"
  let marked := if d.isOptional then ", optional" else ""
  s!"{d.artifact.token} ({d.scope}{transitive}{marked})"

end Dependency

end Classpath
