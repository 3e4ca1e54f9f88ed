import Classpath.Assembly
import Classpath.Failure
import Classpath.Files.Tree
import Classpath.Plan

namespace Classpath.Plan

/-! # Replaying plans

A plan is replayed as the calls that a build would make: the root artifact, the properties, the keys
of the local project and the three lists, then the extensions one after the other. A descriptor
with a malformed token is skipped and recorded; every other problem ends the replay and names the
entry that it comes from. -/

/-! ## Tokens -/

/-- The fault of an entry whose token names nothing. -/
def entryFault (p : Plan) (entry : String) (fault : Fault) : Fault :=
  .invalidPlan p.source s!"{entry}: {fault.message}"

/-- The name of an entry of a list. -/
def entryName (list : String) (index : Nat) : String :=
  s!"{list}[{index}]"

/-- What a list of entries stands for, from the entry with an index on. -/
def readEntries {α β : Type} (p : Plan) (list : String) (read : α → Except Fault β) :
    Nat → List α → Except Fault (List β)
  | _, [] => .ok []
  | index, x :: xs =>
    match read x with
    | .error fault => .error (p.entryFault (entryName list index) fault)
    | .ok y =>
      match p.readEntries list read (index + 1) xs with
      | .error fault => .error fault
      | .ok ys => .ok (y :: ys)

/-- The dependency that an entry stands for. -/
def Entry.dependency (e : Entry) : Except Fault Dependency :=
  (Artifact.parse e.artifact).map fun artifact =>
    { artifact := artifact
      scope := e.scope.getD Dependency.defaultScope
      direct := e.direct
      isOptional := e.isOptional }

/-- The assembly of all that a plan says without its extensions. -/
def foundation (p : Plan) : Except Fault Assembly := do
  let root ← (Artifact.parse p.application).mapError (p.entryFault "app_artifact")
  let a ← Assembly.empty.setApplication root
  let a := a.addProperties p.properties.entries
  let keys ← p.readEntries "local_project_artifacts" Key.parse 0 p.localProject
  let a ← a.addKeys .localProject keys
  let runtime ← p.readEntries "runtime_deps" Entry.dependency 0 p.runtime
  let a ← a.addDependencies .runtime runtime
  let deployment ← p.readEntries "deployment_deps" Entry.dependency 0 p.deployment
  let a ← a.addDependencies .deployment deployment
  let fullDeployment ← p.readEntries "full_deployment_deps" Entry.dependency 0 p.fullDeployment
  a.addDependencies .fullDeployment fullDeployment

/-! ## Extensions -/

/-- The property map in a descriptor file. -/
def readDescriptor (files : FileTree) (path : Path) : Except Failure PropertyMap :=
  match files.readText path with
  | .error fault =>
    .error ((Failure.ofFile fault).within s!"Failed to read extension descriptor: {path}")
  | .ok text => .ok (Properties.parse text)

/-- The property map of an extension, from the plan itself or from the descriptor file. -/
def descriptorOf (p : Plan) (files : FileTree) (e : Extension) : Except Failure PropertyMap :=
  match e.properties, e.descriptor with
  | some properties, none => .ok properties
  | none, some path =>
    (readDescriptor files (p.base.join path)).mapError fun failure =>
      failure.within s!"Cannot load descriptor of extension '{e.name}'"
  | some _, some _ =>
    .error (.ofFault (.invalidPlan p.source
      s!"extension '{e.name}' sets both 'properties' and 'descriptor'"))
  | none, none =>
    .error (.ofFault (.invalidPlan p.source
      s!"extension '{e.name}' needs either 'properties' or 'descriptor'"))

/-! ## The replay -/

/-- How far a replay has come, or where it ended: the result so far, all diagnostics that were
collected, and the events. -/
structure Replay (α : Type) where
  result : α
  diagnostics : List Diagnostic
  events : List Event

/-- A replay after the descriptor of one more extension. -/
def Replay.merge (r : Replay Assembly) (name : String) (properties : PropertyMap) :
    Replay Assembly :=
  let merged := r.result.merge name properties
  let applied : List Event :=
    if merged.rejected.isSome then []
    else [⟨.debug, s!"Merged descriptor of extension {name}"⟩]
  { result := merged.assembly
    diagnostics := r.diagnostics ++ merged.rejected.toList
    events := r.events ++ merged.events ++ applied }

/-- A replay that ended with this failure. -/
def Replay.failed {α β : Type} (r : Replay α) (failure : Failure) : Replay (Except Failure β) :=
  { r with result := .error failure }

/-- A replay after some more extensions, or up to the first that has no property map. -/
def mergeAll (p : Plan) (files : FileTree) (r : Replay Assembly) :
    List Extension → Replay (Except Failure Assembly)
  | [] => { r with result := .ok r.result }
  | e :: es =>
    match p.descriptorOf files e with
    | .error failure => r.failed failure
    | .ok properties => p.mergeAll files (r.merge e.name properties) es

/-- What is reported at the end of a replay. -/
def replayedEvent (p : Plan) (ignored : Nat) : Event :=
  ⟨.info, s!"Assembled {p.application} ({p.extensions.length} extension(s), {ignored} ignored)"⟩

/-- Replays a plan, after some diagnostics that were collected before. -/
def replay (p : Plan) (files : FileTree) (earlier : List Diagnostic) :
    Replay (Except Failure Assembly) :=
  match p.foundation with
  | .error fault => ⟨.error (.ofFault fault), earlier, []⟩
  | .ok a =>
    let r := p.mergeAll files ⟨a, earlier, []⟩ p.extensions
    match r.result with
    | .error _ => r
    | .ok _ => { r with events := r.events ++ [p.replayedEvent r.diagnostics.length] }

/-- Replays a plan and freezes the assembly. -/
def assemble (p : Plan) (files : FileTree) : Replay (Except Failure Model) :=
  let r := p.replay files []
  match r.result with
  | .error failure => r.failed failure
  | .ok a =>
    match a.freeze with
    | .error fault => r.failed (.ofFault fault)
    | .ok model =>
      { result := .ok model
        diagnostics := r.diagnostics
        events := r.events ++ [Assembly.frozenEvent model] }

/-! ## Plan files -/

def loadContext (path : Path) : String :=
  s!"Cannot read assembly plan: {path}\n\n" ++
    "Possible causes:\n" ++
    "- File doesn't exist\n" ++
    "- Permission denied (check file ownership)"

/-- The plan in a file. Paths of descriptors start from where the file is. -/
def load (files : FileTree) (path : Path) : Except Failure Plan :=
  match files.readText path with
  | .error fault => .error ((Failure.ofFile fault).within (loadContext path))
  | .ok text => (parse text path (path.parent?.getD "")).mapError .ofFault

/-- What is reported when a plan was read from a file. -/
def loadedEvent (path : Path) (p : Plan) : Event :=
  ⟨.debug, s!"Loaded plan {path} with {p.extensions.length} extension(s)"⟩

end Classpath.Plan
