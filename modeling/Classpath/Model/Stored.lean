import Classpath.Files.Replace
import Classpath.Model.Transport

namespace Classpath.Model

/-! # Models in files

A model file holds the text of a model under a line that warns against editing it. -/

def saveContext (p : Path) : String :=
  s!"Cannot write application model: {p}\n\n" ++
    "Possible causes:\n" ++
    "- Permission denied\n" ++
    "- Disk is full or read-only\n" ++
    "- File is locked by another process"

def loadContext (p : Path) : String :=
  s!"Cannot read application model: {p}\n\n" ++
    "Possible causes:\n" ++
    "- File doesn't exist (run 'app-model assemble' to create it)\n" ++
    "- Permission denied (check file ownership)"

/-- Replaces a file by the file of a model. -/
def save (m : Model) (files : FileTree) (p : Path) : FileTree × Except Failure Unit :=
  match files.replace p m.fileText.toUTF8 with
  | (written, .ok ()) => (written, .ok ())
  | (written, .error failure) => (written, .error (failure.within (saveContext p)))

/-- The model in a file. -/
def load (files : FileTree) (p : Path) : Except Failure Model :=
  match files.readText p with
  | .error fault => .error ((Failure.ofFile fault).within (loadContext p))
  | .ok text => (ofSource p text).mapError .ofFault

end Classpath.Model
