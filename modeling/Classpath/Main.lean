import Classpath.Command.Line
import Classpath.Command.Run

/-! # The program

Runs one command on the files of this machine. What the command may look at is taken from the disk
into a tree, the command runs on the tree, and what it changed there is carried over to the disk.
What cannot be read counts as missing. -/

namespace Classpath.Program

open Command (Line Usage Verbosity)

/-! ## From the disk -/

/-- The entry at a path of the disk. -/
def entryOnDisk (p : Path) : IO (Option FileTree.Entry) := do
  try
    let place ← IO.FS.realPath p
    if ← place.isDir then return some .directory
    return some (.file (← IO.FS.readBinFile place))
  catch _ => return none

/-- The tree with the entry at a path of the disk, where the paths above it are taken already. -/
def take (t : FileTree) (p : Path) : IO FileTree := do
  match t.locate p, ← entryOnDisk p with
  | .ok l, some e => return t.put l e
  | _, _ => return t

/-- The tree with all that a path leads through. -/
def takeAll (t : FileTree) (p : Path) : IO FileTree :=
  p.ancestors.reverse.foldlM take t

/-- The paths that a command may look at, as far as its arguments tell. -/
def pathsOf : Command → List Path
  | .assemble plan none _ => [plan]
  | .assemble plan (some output) _ => [plan, output, FileTree.sibling output]
  | .inspect model _ | .classify model _ | .verify model _ => [model]

/-- The descriptors that a command reads. -/
def descriptorsOf (t : FileTree) : Command → List Path
  | .assemble path _ _ =>
    match Plan.load t path with
    | .ok plan => plan.extensions.filterMap fun e => e.descriptor.map plan.base.join
    | .error _ => []
  | _ => []

/-- The tree of all that a command looks at. -/
def filesFor (command : Command) : IO FileTree := do
  let here := (← IO.currentDir).toString
  let names := (Path.pieces here).filter (· ≠ "")
  let bare := FileTree.empty names
  let t ← (pathsOf command).foldlM takeAll (bare.plant names .directory)
  (descriptorsOf t command).foldlM takeAll t

/-! ## To the disk -/

/-- The absolute path of a location. -/
def pathOf (l : Location) : Path :=
  "/" ++ Text.join "/" l

/-- Makes the disk hold an entry; a file takes its place as a whole. -/
def store (l : Location) : FileTree.Entry → IO Unit
  | .directory => IO.FS.createDirAll (pathOf l)
  | .file content => do
    let path := pathOf l
    IO.FS.writeBinFile (FileTree.sibling path) content
    IO.FS.rename (FileTree.sibling path) path

/-- Carries the difference between two trees over to the disk. -/
def carryOver (before after : FileTree) : IO Unit := do
  for (l, e) in after.entries.entries do
    if before.entryAt l ≠ some e then store l e
  for (l, _) in before.entries.entries do
    if (after.entryAt l).isNone then
      try IO.FS.removeFile (pathOf l) catch _ => pure ()

/-! ## Running -/

/-- Whether an event is printed. -/
def isLogged : Verbosity → Event → Bool
  | .verbose, _ => true
  | .normal, e => e.level ≠ .debug
  | .quiet, _ => false

/-- Whether texts are painted: on a terminal, unless the user does not want it. -/
def wantsColours : IO Bool := do
  return (← (← IO.getStdout).isTty) && (← IO.getEnv "NO_COLOR").isNone

/-- The run of a command on the disk; one whose changes cannot be carried over has failed. -/
def runOnDisk (colours : Bool) (command : Command) : IO Command.Run := do
  let files ← filesFor command
  let run := command.run colours files
  try
    carryOver files run.files
    return run
  catch e =>
    return { run with output := "", result := .error (.ofMessage (toString e)) }

def runLine (line : Line) : IO UInt32 := do
  let colours ← wantsColours
  let run ← runOnDisk colours line.command
  for e in run.events do
    if isLogged line.verbosity e then IO.eprintln e.line
  IO.print run.output
  IO.eprint (run.allErrors colours)
  return UInt32.ofNat run.exitStatus

/-- What a line that names no command is answered with. -/
def answerTo : Usage → String
  | .version => "app-model 0.1.0\n"
  | _ => "Usage: app-model [OPTIONS] <COMMAND>\n"

/-- Answers a line that names no command to run. -/
def refuse (usage : Usage) : IO UInt32 := do
  if usage.exitStatus = 0 then IO.print (answerTo usage) else IO.eprint (answerTo usage)
  return UInt32.ofNat usage.exitStatus

end Classpath.Program

def main (arguments : List String) : IO UInt32 :=
  match Classpath.Command.Line.ofArguments arguments with
  | .error usage => Classpath.Program.refuse usage
  | .ok line => Classpath.Program.runLine line
