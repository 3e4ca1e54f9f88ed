import Classpath.Fault
import Classpath.Text.Paint

namespace Classpath

/-! # Reports

What a user is told about a fault: the fault itself, details about it, and a suggestion what to do.
Each kind of fault has its usual details and its usual suggestion, or lacks them. -/

structure Report where
  fault : Fault
  details : Option String
  suggestion : Option String
deriving Repr, DecidableEq

/-- What is always to be said about a kind of fault. -/
def Fault.usualDetails : Fault → Option String
  | .invalidArgument .. =>
    some ("Dependencies handed to the model must be fully resolved, " ++
      "with group, name and version set")
  | .unreadableModel .. =>
    some "Serialized models are only exchanged between identical tool versions"
  | .brokenInvariant .. =>
    some ("Every deployment dependency must also be listed " ++
      "among the full deployment dependencies")
  | _ => none

/-- What helps against a kind of fault. -/
def Fault.usualSuggestion : Fault → Option String
  | .malformedToken .. =>
    some "Use group:name[:classifier[:type]] with a non-empty group and name"
  | .incompleteModel .. => some "Set the application artifact before building the model"
  | .unreadableModel .. =>
    some "Regenerate the model with the same version of app-model that reads it"
  | .invalidPlan .. => some "Check the plan's artifact tokens and descriptor paths"
  | .rejectedDescriptors .. =>
    some "Fix the reported descriptor tokens or run without --strict"
  | _ => none

/-- The form in which a fault goes into the report on a failure: one that comes from writing keeps
nothing but its message. -/
def Fault.reported : Fault → Fault
  | .unwritable reason => .other (Fault.unwritable reason).message
  | fault => fault

namespace Report

/-- The usual report on a fault. -/
def usual (fault : Fault) : Report :=
  ⟨fault, fault.usualDetails, fault.usualSuggestion⟩

/-- The usual report with other details. -/
def withDetails (fault : Fault) (details : String) : Report :=
  { usual fault with details := some details }

/-- The report as one text, a line for each part. -/
def display (r : Report) : String :=
  let details := (r.details.map fun text => s!"\nDetails: {text}").getD ""
  let suggestion := (r.suggestion.map fun text => s!"\nSuggestion: {text}").getD ""
  s!"{r.fault.message}{details}{suggestion}"

/-- A line with a painted label. -/
def labelled (colours : Bool) (look : Text.Look) (label text : String) : String :=
  s!"{Text.paint colours look label}: {text}\n"

/-- The report as it is printed for a user. -/
def print (colours : Bool) (r : Report) : String :=
  let details := (r.details.map (labelled colours .yellow "details")).getD ""
  let suggestion := (r.suggestion.map (labelled colours .green "suggestion")).getD ""
  labelled colours .boldRed "error" r.fault.message ++ details ++ suggestion

end Report

end Classpath
