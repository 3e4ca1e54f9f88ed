import Classpath.Command
import Classpath.Json.Writer
import Classpath.Model.Stored
import Classpath.Plan.Replay
import Classpath.Text.Paint

namespace Classpath.Command

/-! # Running commands

A run takes the files as they are and gives the files as it leaves them, together with what it
prints, the events that it reports, and the failure that ended it, if one did. -/

open Text (paint)

structure Run where
  files : FileTree
  output : String
  errors : String
  events : List Event
  result : Except Failure Unit

namespace Run

/-- A run that printed something and changed no file. -/
def printed (files : FileTree) (output : String) : Run :=
  ⟨files, output, "", [], .ok ()⟩

/-- A run that failed before it did anything. -/
def failed (files : FileTree) (failure : Failure) : Run :=
  ⟨files, "", "", [], .error failure⟩

end Run

/-- The lines of a text, each with its ending. -/
def linesText (lines : List String) : String :=
  String.join (lines.map (· ++ "\n"))

/-! ## Assembling -/

def warningLine (colours : Bool) (d : Diagnostic) : String :=
  let sign := paint colours .yellow "⚠"
  s!"{sign} {d.display}"

/-- The report on a strict run in which descriptors were rejected. -/
def rejectionReport (diagnostics : List Diagnostic) : Report :=
  let names := Text.join ", " (diagnostics.map Diagnostic.source)
  .withDetails (.rejectedDescriptors diagnostics.length) s!"Rejected extensions: {names}"

/-- Prints a model or saves it, where events and warnings came before. -/
def deliver (colours : Bool) (files : FileTree) (model : Model) (output : Option Path)
    (errors : String) (events : List Event) : Run :=
  match output with
  | none => ⟨files, model.toToml, errors, events, .ok ()⟩
  | some path =>
    match model.save files path with
    | (written, .error failure) => ⟨written, "", errors, events, .error failure⟩
    | (written, .ok ()) =>
      let tick := paint colours .green "✓"
      let line := s!"{tick} Wrote {model.application.token} to {path}"
      ⟨written, linesText [line], errors, events, .ok ()⟩

def runAssemble (colours : Bool) (files : FileTree) (path : Path) (output : Option Path)
    (strict : Bool) : Run :=
  match Plan.load files path with
  | .error failure => .failed files failure
  | .ok plan =>
    let replay := plan.assemble files
    let events := plan.loadedEvent path :: replay.events
    match replay.result with
    | .error failure => ⟨files, "", "", events, .error failure⟩
    | .ok model =>
      let warnings := linesText (replay.diagnostics.map (warningLine colours))
      if strict ∧ replay.diagnostics ≠ [] then
        ⟨files, "", warnings, events, .error (.ofReport (rejectionReport replay.diagnostics))⟩
      else deliver colours files model output warnings events

/-! ## Inspecting -/

/-- The lines on a set of keys; there are none on an empty set. -/
def keySetLines (title : String) (keys : KeySet) : List String :=
  if keys.isEmpty then []
  else s!"  {title} ({keys.size}):" :: keys.toList.map fun k => s!"    {k.token}"

/-- The lines on the properties; there are none without properties. -/
def propertyLines (properties : PropertyMap) : List String :=
  if properties.isEmpty then []
  else
    s!"  Platform properties ({properties.size}):" ::
      properties.entries.map fun (key, value) => s!"    {key} = {value}"

/-- The summary of a model for readers. -/
def summaryLines (colours : Bool) (m : Model) : List String :=
  [paint colours .bold m.application.token,
   s!"  Fingerprint: {m.fingerprint}",
   s!"  Runtime dependencies: {m.runtime.length}",
   s!"  Deployment dependencies: {m.deployment.length}",
   s!"  Full deployment dependencies: {m.fullDeployment.length}"] ++
    keySetLines "Parent-first artifacts" m.parentFirst ++
    keySetLines "Runner parent-first artifacts" m.runnerParentFirst ++
    keySetLines "Lesser-priority artifacts" m.lesserPriority ++
    keySetLines "Local project artifacts" m.localProject ++
    propertyLines m.properties

/-- The summary of a model for programs. -/
def summaryDocument (m : Model) : Document :=
  .table
    [("app_artifact", .text m.application.token),
     ("fingerprint", .text m.fingerprint),
     ("dependencies", .table
       [("runtime", .integer m.runtime.length),
        ("deployment", .integer m.deployment.length),
        ("full_deployment", .integer m.fullDeployment.length)]),
     ("parent_first_artifacts", m.parentFirst.toDocument),
     ("runner_parent_first_artifacts", m.runnerParentFirst.toDocument),
     ("lesser_priority_artifacts", m.lesserPriority.toDocument),
     ("local_project_artifacts", m.localProject.toDocument),
     ("platform_properties", m.properties.toDocument)]

def runInspect (colours : Bool) (files : FileTree) (path : Path) (format : OutputFormat) : Run :=
  match Model.load files path with
  | .error failure => .failed files failure
  | .ok model =>
    match format with
    | .text => .printed files (linesText (summaryLines colours model))
    | .json => .printed files (linesText [Json.write (summaryDocument model)])

/-! ## Classifying -/

/-- The name of a placement in its colour. -/
def placementText (colours : Bool) (p : Model.Placement) : String :=
  match p with
  | .parentFirst => paint colours .cyan p.name
  | .lesserPriority => paint colours .yellow p.name
  | .isolated => p.name

def placementLine (colours : Bool) (m : Model) (key : Key) (context : Model.Context) : String :=
  s!"  {context.name}: {placementText colours (m.placement key context)}"

def classificationLines (colours : Bool) (m : Model) (key : Key) : List String :=
  let isLocal := if key ∈ m.localProject then "yes" else "no"
  paint colours .bold key.token ::
    Model.Context.all.map (placementLine colours m key) ++
    [s!"  local project: {isLocal}"]

def runClassify (colours : Bool) (files : FileTree) (path : Path) (token : String) : Run :=
  match Key.parse token with
  | .error fault => .failed files (.ofFault fault)
  | .ok key =>
    match Model.load files path with
    | .error failure => .failed files failure
    | .ok model => .printed files (linesText (classificationLines colours model key))

/-! ## Verifying -/

def missingLine (colours : Bool) (d : Dependency) : String :=
  let cross := paint colours .red "✗"
  s!"{cross} {d.display} is not in the full deployment list"

/-- The fault of a model whose full deployment list lacks so many dependencies. -/
def missingFault (count : Nat) : Fault :=
  .brokenInvariant s!"{count} deployment dependency(ies) missing from the full deployment list"

def runVerify (colours : Bool) (files : FileTree) (path : Path) (expected : Option String) : Run :=
  match Model.load files path with
  | .error failure => .failed files failure
  | .ok model =>
    let missing := model.missingDeployment
    if missing ≠ [] then
      ⟨files, "", linesText (missing.map (missingLine colours)), [],
        .error (.ofFault (missingFault missing.length))⟩
    else
      let fingerprint := model.fingerprint
      let wanted := expected.getD fingerprint
      if wanted ≠ fingerprint then
        .failed files
          (.ofMessage s!"Fingerprint mismatch: expected {wanted}, found {fingerprint}")
      else
        let tick := paint colours .green "✓"
        let line := s!"{tick} Valid application model {model.application.token}"
        .printed files (linesText [line, fingerprint])

/-! ## All commands -/

def run (colours : Bool) (files : FileTree) : Command → Run
  | .assemble plan output strict => runAssemble colours files plan output strict
  | .inspect model format => runInspect colours files model format
  | .classify model key => runClassify colours files model key
  | .verify model expected => runVerify colours files model expected

namespace Run

/-- A failed run exits with one. -/
def exitStatus (r : Run) : Nat :=
  match r.result with
  | .ok () => 0
  | .error _ => 1

/-- All that goes to the error output: what was printed there, and the report on a failure. -/
def allErrors (colours : Bool) (r : Run) : String :=
  match r.result with
  | .ok () => r.errors
  | .error failure => r.errors ++ failure.report.print colours

end Run

end Classpath.Command
