namespace Classpath

/-! # Faults

The ways in which assembling, transporting or checking a model can fail. A fault carries the data
of its cause, and `Fault.message` is the one place that words it. -/

inductive Fault where
  /-- A token names no artifact or key. -/
  | malformedToken (token reason : String)
  /-- A value handed to an assembly lacks a required part. -/
  | invalidArgument (argument reason : String)
  /-- The assembly lacks what every model has. -/
  | incompleteModel (reason : String)
  /-- A serialized model cannot be read. -/
  | unreadableModel (source reason : String)
  /-- A model breaks a rule that its producer should have kept. -/
  | brokenInvariant (reason : String)
  /-- An assembly plan cannot be read or replayed. -/
  | invalidPlan (file reason : String)
  /-- Descriptors were rejected while rejection was not allowed. -/
  | rejectedDescriptors (count : Nat)
  /-- A value has no serialized form. -/
  | unwritable (reason : String)
  | other (text : String)
deriving Repr, DecidableEq, Inhabited

def Fault.message : Fault → String
  | .malformedToken token reason => s!"Malformed artifact descriptor '{token}': {reason}"
  | .invalidArgument argument reason => s!"Invalid argument for {argument}: {reason}"
  | .incompleteModel reason => s!"Incomplete application model: {reason}"
  | .unreadableModel source reason => s!"Invalid application model in {source}: {reason}"
  | .brokenInvariant reason => s!"Application model invariant violated: {reason}"
  | .invalidPlan file reason => s!"Invalid assembly plan {file}: {reason}"
  | .rejectedDescriptors count => s!"{count} extension descriptor(s) were rejected"
  | .unwritable reason => s!"TOML serialization error: {reason}"
  | .other text => text

end Classpath
