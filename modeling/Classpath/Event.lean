namespace Classpath

/-! # Events

What the program reports about its work while it works, apart from its answer. Functions that
report return their events in order; nothing is lost when they fail. -/

inductive Level where
  | debug
  | info
  | warn
deriving Repr, DecidableEq

def Level.name : Level → String
  | .debug => "DEBUG"
  | .info => "INFO"
  | .warn => "WARN"

structure Event where
  level : Level
  text : String
deriving Repr, DecidableEq

/-- The level, a space and the text. -/
def Event.line (e : Event) : String :=
  s!"{e.level.name} {e.text}"

end Classpath
