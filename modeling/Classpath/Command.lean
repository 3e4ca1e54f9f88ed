import Classpath.Files.Path

namespace Classpath

/-! # Commands

What the program can be asked to do. Each command reads one plan or one model, and only assembling
with an output path writes anything. -/

inductive Command.OutputFormat where
  | text
  | json
deriving Repr, DecidableEq

inductive Command where
  /-- Builds the model of a plan, and prints it or saves it. -/
  | assemble (plan : Path) (output : Option Path) (strict : Bool)
  /-- Summarizes a model. -/
  | inspect (model : Path) (format : Command.OutputFormat)
  /-- Shows where a key belongs. -/
  | classify (model : Path) (key : String)
  /-- Checks a model, and its fingerprint if one is expected. -/
  | verify (model : Path) (expected : Option String)
deriving Repr, DecidableEq

end Classpath
