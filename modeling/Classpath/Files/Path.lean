import Classpath.Text.Segments

namespace Classpath

/-! # Paths

A path is a text cut into pieces by slashes, and absolute if it starts with one. Not every piece
names something: empty pieces and single points leave a path where it is, and only at the start of a
relative path does a point count as a name. Taking a path apart goes by the names, and keeps the
spelling of what is left. -/

abbrev Path := String

namespace Path

def pieces (p : Path) : List String :=
  Text.split '/' p

def isAbsolute (p : Path) : Bool :=
  p.toList.head? = some '/'

/-- Drops the pieces at the end that name nothing, where the pieces come last first. -/
def namedEnd : List String → List String
  | [] => []
  | [first] => if first = "" then [] else [first]
  | last :: before => if last = "" ∨ last = "." then namedEnd before else last :: before

/-- The path to what holds the last name: the empty path above a single name, and none above the
root and the empty path. -/
def parent? (p : Path) : Option Path :=
  match namedEnd p.pieces.reverse with
  | [] => none
  | _ :: before =>
    match namedEnd before with
    | [] => some (if p.isAbsolute then "/" else "")
    | named => some (Text.join "/" named.reverse)

/-- The parents of a path, the nearest first, as far as `limit` reaches. -/
def parents (limit : Nat) (p : Path) : List Path :=
  match limit, p.parent? with
  | 0, _ => []
  | _, none => []
  | limit + 1, some above => above :: parents limit above

/-- The path and all paths above it, the nearest first. Each is shorter than the one before it. -/
def ancestors (p : Path) : List Path :=
  p :: parents p.length p

/-- The last name, unless it is one or two points. -/
def fileName? (p : Path) : Option String :=
  match namedEnd p.pieces.reverse with
  | [] => none
  | name :: _ => if name = "." ∨ name = ".." then none else some name

/-- A path seen from a base. -/
def join (base p : Path) : Path :=
  if p.isAbsolute ∨ base = "" then p
  else if base.toList.getLast? = some '/' then base ++ p
  else s!"{base}/{p}"

/-- The path with another last name, or with one more if it has none. -/
def withFileName (p : Path) (name : String) : Path :=
  match p.fileName? with
  | none => p.join name
  | some _ => (p.parent?.getD "").join name

end Path

end Classpath
