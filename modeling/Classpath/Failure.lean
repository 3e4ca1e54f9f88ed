import Classpath.Files.Fault
import Classpath.Report
import Classpath.Text.Segments

namespace Classpath

/-! # Failures

A failure is a cause together with the contexts in which it came up, the outermost first. Contexts
say what was being done; they never hide the cause, from which the report on the failure is made. -/

inductive Failure.Cause where
  | fault (fault : Fault)
  | system (kind : SystemFault) (text : String)
  | report (report : Report)
  | message (text : String)
deriving Repr, DecidableEq

def Failure.Cause.text : Cause → String
  | .fault f => f.message
  | .system _ words => words
  | .report r => r.display
  | .message words => words

structure Failure where
  contexts : List String
  cause : Failure.Cause
deriving Repr, DecidableEq

namespace Failure

def ofFault (fault : Fault) : Failure :=
  ⟨[], .fault fault⟩

def ofFile (fault : FileFault) : Failure :=
  ⟨[], .system fault.kind fault.message⟩

def ofReport (report : Report) : Failure :=
  ⟨[], .report report⟩

def ofMessage (text : String) : Failure :=
  ⟨[], .message text⟩

/-- The failure in one more context. -/
def within (f : Failure) (context : String) : Failure :=
  { f with contexts := context :: f.contexts }

/-- The outermost message. -/
def outermost (f : Failure) : String :=
  f.contexts.head?.getD f.cause.text

/-- All messages, the outermost first. -/
def text (f : Failure) : String :=
  Text.join ": " (f.contexts ++ [f.cause.text])

/-! ## Reports on failures -/

/-- What helps against a fault of the system. -/
def systemSuggestion : SystemFault → Option String
  | .notFound => some "Check that the file exists and the path is correct"
  | .permissionDenied => some "Check file ownership and permissions"
  | _ => none

/-- The usual report on a fault, where the outermost message takes the place of details that the
kind of fault does not have. -/
def reportOn (fault : Fault) (outermost : String) : Report :=
  let usual := Report.usual fault.reported
  if outermost ≠ fault.message ∧ usual.details = none then
    { usual with details := some outermost }
  else usual

/-- What a user is told about a failure. -/
def report (f : Failure) : Report :=
  match f.cause with
  | .report r => { r with fault := r.fault.reported }
  | .fault fault => reportOn fault f.outermost
  | .system kind _ => ⟨.other f.text, none, systemSuggestion kind⟩
  | .message _ => ⟨.other f.text, none, none⟩

end Failure

end Classpath
