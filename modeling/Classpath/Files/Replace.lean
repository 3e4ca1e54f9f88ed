import Classpath.Failure
import Classpath.Files.Tree

namespace Classpath.FileTree

/-! # Replacing files as a whole

A file is replaced by writing a sibling first, which then takes its place, so that a reader sees the
old content or the new one and nothing between. The sibling has the name of the file with one more
extension, and it is removed if it cannot take the place. -/

/-- Makes sure that there is a directory, and makes it with all above it if need be. -/
def ensureDirectory (t : FileTree) (p : Path) : FileTree × Except Failure Unit :=
  if t.doesExist p then
    if t.isDirectory p then (t, .ok ())
    else (t, .error (.ofMessage s!"Path exists but is not a directory: {p}"))
  else
    match t.makeDirectories p with
    | (made, .ok ()) => (made, .ok ())
    | (made, .error fault) =>
      (made, .error ((Failure.ofFile fault).within s!"Failed to create directory: {p}"))

/-- Makes sure that there is a directory above a path. -/
def ensureParent (t : FileTree) (p : Path) : FileTree × Except Failure Unit :=
  match p.parent? with
  | none => (t, .ok ())
  | some above => if above = "" then (t, .ok ()) else t.ensureDirectory above

/-- The sibling through which a file is written. -/
def sibling (p : Path) : Path :=
  p.withFileName (p.fileName?.getD "" ++ ".tmp")

/-- Writes the sibling and puts it in the place of the file. -/
def replaceThrough (t : FileTree) (sibling p : Path) (content : ByteArray) :
    FileTree × Except Failure Unit :=
  match t.write sibling content with
  | .error fault =>
    let context := s!"Failed to create temp file: {sibling}\n\n" ++
      "Check file permissions and that directory exists"
    (t, .error ((Failure.ofFile fault).within context))
  | .ok written =>
    match written.moveFile sibling p with
    | .ok moved => (moved, .ok ())
    | .error fault =>
      let cleared :=
        match written.removeFile sibling with
        | .ok removed => removed
        | .error _ => written
      (cleared, .error ((Failure.ofFile fault).within s!"Failed to rename temp file to: {p}"))

/-- Makes the content of a file, and the directories above it if they are missing. -/
def replace (t : FileTree) (p : Path) (content : ByteArray) : FileTree × Except Failure Unit :=
  match t.ensureParent p with
  | (made, .error failure) => (made, .error failure)
  | (made, .ok ()) => made.replaceThrough (sibling p) p content

end Classpath.FileTree
