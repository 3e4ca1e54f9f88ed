import Classpath.Files.Fault
import Classpath.Files.Path
import Classpath.OrderedMap

namespace Classpath

/-! # Trees of files

What a run sees of a file system: regular files and directories, no links, and nobody else who
changes them.

1. **Tree**: entries by location, each under a directory; the root is always there. Files are put
   and dropped, directories only put, so that no entry ever loses the directory above it.
2. **Look-up**: a path is walked piece by piece from the root or the current directory, and each
   piece has to start from a directory.
3. **Operations**: each either succeeds or leaves the tree alone, except that making a directory
   with all above it keeps those that it made before it failed. -/

/-- The names from the root to an entry. -/
abbrev Location := List String

-- Contents are compared by the core library's test.
local instance decidableEqContent : DecidableEq ByteArray := ByteArray.instDecidableEq

inductive FileTree.Entry where
  | file (content : ByteArray)
  | directory
deriving DecidableEq

/-- The entry at a location of a map in which only the root is left out. -/
def FileTree.entryIn (entries : OrderedMap Location Entry) (l : Location) : Option Entry :=
  if l = [] then some .directory else entries.get? l

structure FileTree where
  entries : OrderedMap Location FileTree.Entry
  /-- Where relative paths start. -/
  current : Location
  rooted : ∀ above name, (FileTree.entryIn entries (above ++ [name])).isSome →
    FileTree.entryIn entries above = some .directory

namespace FileTree

def entryAt (t : FileTree) (l : Location) : Option Entry :=
  entryIn t.entries l

/-! ## Putting and dropping -/

theorem entryIn_insert (entries : OrderedMap Location Entry) {l : Location} (e : Entry)
    (l' : Location) (h : l ≠ []) :
    entryIn (entries.insert l e) l' = if l = l' then some e else entryIn entries l' := by
  simp only [entryIn, OrderedMap.get?_insert]
  grind

theorem entryIn_erase (entries : OrderedMap Location Entry) {l : Location} (l' : Location)
    (h : l ≠ []) :
    entryIn (entries.erase l) l' = if l = l' then none else entryIn entries l' := by
  simp only [entryIn, OrderedMap.get?_erase]
  grind

/-- There is a directory to put the location in, and none at the location itself. -/
def IsFree (t : FileTree) (l : Location) : Prop :=
  l ≠ [] ∧ t.entryAt l.dropLast = some .directory ∧ t.entryAt l ≠ some .directory

instance (t : FileTree) (l : Location) : Decidable (t.IsFree l) :=
  inferInstanceAs (Decidable (_ ∧ _ ∧ _))

theorem rooted_insert {t : FileTree} {l : Location} (e : Entry) (h : t.IsFree l) (above : Location)
    (name : String) (hsome : (entryIn (t.entries.insert l e) (above ++ [name])).isSome) :
    entryIn (t.entries.insert l e) above = some .directory := by
  obtain ⟨hne, hdir, hfree⟩ := h
  rw [entryIn_insert t.entries e _ hne] at hsome ⊢
  have habove : entryIn t.entries above = some .directory := by
    by_cases hl : l = above ++ [name]
    · subst hl
      simpa [entryAt] using hdir
    · exact t.rooted above name (by simpa [hl] using hsome)
  have hl : l ≠ above := fun hl => hfree (hl ▸ habove)
  simpa [hl] using habove

/-- Puts a file or a directory at a location that is free for it; elsewhere nothing changes. -/
def put (t : FileTree) (l : Location) (e : Entry) : FileTree :=
  if h : t.IsFree l then { t with entries := t.entries.insert l e, rooted := rooted_insert e h }
  else t

theorem rooted_erase {t : FileTree} {l : Location} {content : ByteArray} (hne : l ≠ [])
    (hfile : t.entryAt l = some (.file content)) (above : Location) (name : String)
    (hsome : (entryIn (t.entries.erase l) (above ++ [name])).isSome) :
    entryIn (t.entries.erase l) above = some .directory := by
  rw [entryIn_erase t.entries _ hne] at hsome ⊢
  have habove : entryIn t.entries above = some .directory :=
    t.rooted above name (by grind)
  have hl : l ≠ above := fun hl => by simp [entryAt, hl, habove] at hfile
  simpa [hl] using habove

theorem ne_nil_of_file {t : FileTree} {l : Location} {content : ByteArray}
    (h : t.entryAt l = some (.file content)) : l ≠ [] := by
  rintro rfl
  simp [entryAt, entryIn] at h

/-- Drops a file; where there is none, nothing changes. -/
def drop (t : FileTree) (l : Location) : FileTree :=
  match h : t.entryAt l with
  | some (.file _) =>
    { t with entries := t.entries.erase l, rooted := rooted_erase (ne_nil_of_file h) h }
  | _ => t

/-! ## Building a tree -/

theorem rooted_empty (above : Location) (name : String)
    (h : (entryIn ∅ (above ++ [name])).isSome) : entryIn ∅ above = some .directory := by
  have hnone : entryIn ∅ (above ++ [name]) = none := by
    simp only [entryIn, List.append_eq_nil_iff, List.cons_ne_nil, and_false, ↓reduceIte]
    rfl
  simp [hnone] at h

/-- The tree with nothing in it. -/
def empty (current : Location) : FileTree :=
  { entries := ∅, current := current, rooted := rooted_empty }

/-- Puts the directories with these names, each in the one before it. -/
def putDirectories (t : FileTree) (above : Location) : List String → FileTree
  | [] => t
  | name :: names => (t.put (above ++ [name]) .directory).putDirectories (above ++ [name]) names

/-- Puts an entry with all directories above it. -/
def plant (t : FileTree) (l : Location) (e : Entry) : FileTree :=
  (t.putDirectories [] l.dropLast).put l e

/-- The entries below the current directory, under their relative paths. -/
def below (t : FileTree) : List (Path × Entry) :=
  t.entries.entries.filterMap fun (l, e) =>
    if t.current.isPrefixOf l && t.current.length < l.length then
      some (Text.join "/" (l.drop t.current.length), e)
    else none

/-! ## Look-up -/

/-- The longest name, in bytes. -/
def longestName : Nat := 255

/-- The length in bytes from which on a path is too long. -/
def pathLimit : Nat := 4096

/-- Where a piece leads from a location. -/
def step (t : FileTree) (l : Location) (piece : String) : Except FileFault Location :=
  match t.entryAt l with
  | none => .error .notFound
  | some (.file _) => .error .notDirectory
  | some .directory =>
    if piece = "" ∨ piece = "." then .ok l
    else if piece = ".." then .ok l.dropLast
    else if longestName < piece.utf8ByteSize then .error .nameTooLong
    else .ok (l ++ [piece])

/-- Where pieces lead, one after the other. -/
def walk (t : FileTree) (l : Location) : List String → Except FileFault Location
  | [] => .ok l
  | piece :: pieces =>
    match t.step l piece with
    | .error fault => .error fault
    | .ok next => t.walk next pieces

/-- Where a path starts, unless it cannot be walked at all. -/
def start (t : FileTree) (p : Path) : Except FileFault Location :=
  if '\x00' ∈ p.toList then .error .nulInPath
  else if p = "" then .error .notFound
  else if pathLimit ≤ p.utf8ByteSize then .error .nameTooLong
  else .ok (if p.isAbsolute then [] else t.current)

/-- The location that a path names, with or without an entry. -/
def locate (t : FileTree) (p : Path) : Except FileFault Location :=
  match t.start p with
  | .error fault => .error fault
  | .ok l => t.walk l p.pieces

/-- The entry that a path names. -/
def find (t : FileTree) (p : Path) : Except FileFault Entry :=
  match t.locate p with
  | .error fault => .error fault
  | .ok l =>
    match t.entryAt l with
    | none => .error .notFound
    | some e => .ok e

def doesExist (t : FileTree) (p : Path) : Bool :=
  (t.find p).isOk

def isDirectory (t : FileTree) (p : Path) : Bool :=
  match t.find p with
  | .ok .directory => true
  | _ => false

/-! ## Reading -/

/-- The text in a file. -/
def readText (t : FileTree) (p : Path) : Except FileFault String :=
  match t.find p with
  | .error fault => .error fault
  | .ok .directory => .error .isDirectory
  | .ok (.file content) =>
    match String.fromUTF8? content with
    | none => .error .notText
    | some text => .ok text

/-! ## Changes -/

/-- The end of a path, for an operation on the entry in its directory: the location, whether its
last piece is a name, and whether slashes follow. -/
structure Slot where
  location : Location
  isNamed : Bool
  slashed : Bool
deriving Repr, DecidableEq

def slot (t : FileTree) (p : Path) : Except FileFault Slot :=
  match t.start p with
  | .error fault => .error fault
  | .ok l =>
    let ending := p.pieces.reverse.dropWhile (· = "")
    let slashed := ending.length < p.pieces.length
    match ending with
    | [] => .ok ⟨[], false, slashed⟩
    | last :: before =>
      match t.walk l before.reverse with
      | .error fault => .error fault
      | .ok above =>
        match t.step above last with
        | .error fault => .error fault
        | .ok location => .ok ⟨location, last ≠ "." ∧ last ≠ "..", slashed⟩

/-- Makes one directory. -/
def makeDirectory (t : FileTree) (p : Path) : Except FileFault FileTree :=
  match t.slot p with
  | .error fault => .error fault
  | .ok s =>
    if s.isNamed ∧ t.entryAt s.location = none then .ok (t.put s.location .directory)
    else .error .alreadyExists

/-- Makes the first of some paths a directory, where each path stands before the one above it. -/
def makeFirst (t : FileTree) : List Path → FileTree × Except FileFault Unit
  | [] => (t, .ok ())
  | p :: above =>
    match t.makeDirectory p with
    | .ok made => (made, .ok ())
    | .error .notFound =>
      match t.makeFirst above with
      | (made, .error fault) => (made, .error fault)
      | (made, .ok ()) =>
        match made.makeDirectory p with
        | .ok whole => (whole, .ok ())
        | .error fault => (made, if made.isDirectory p then .ok () else .error fault)
    | .error fault => (t, if t.isDirectory p then .ok () else .error fault)

/-- Makes a directory and all that are missing above it. The empty path names the current one. -/
def makeDirectories (t : FileTree) (p : Path) : FileTree × Except FileFault Unit :=
  t.makeFirst (p.ancestors.filter (· ≠ ""))

/-- Makes a file with this content, in place of a file that is there. -/
def write (t : FileTree) (p : Path) (content : ByteArray) : Except FileFault FileTree :=
  match t.slot p with
  | .error fault => .error fault
  | .ok s =>
    if s.isNamed ∧ ¬ s.slashed ∧ t.entryAt s.location ≠ some .directory then
      .ok (t.put s.location (.file content))
    else .error .isDirectory

/-- Moves a file to another path, in place of a file that is there. -/
def moveFile (t : FileTree) (source target : Path) : Except FileFault FileTree :=
  match t.slot source, t.slot target with
  | .error fault, _ => .error fault
  | _, .error fault => .error fault
  | .ok s, .ok d =>
    if ¬ s.isNamed ∨ ¬ d.isNamed then .error .busy
    else
      match t.entryAt s.location with
      | none => .error .notFound
      | some .directory => .error .isDirectory
      | some (.file content) =>
        if s.slashed ∨ d.slashed then .error .notDirectory
        else if t.entryAt d.location = some .directory then .error .isDirectory
        else .ok ((t.drop s.location).put d.location (.file content))

/-- Removes a file. -/
def removeFile (t : FileTree) (p : Path) : Except FileFault FileTree :=
  match t.slot p with
  | .error fault => .error fault
  | .ok s =>
    match t.entryAt s.location with
    | none => .error .notFound
    | some .directory => .error .isDirectory
    | some (.file _) => if s.slashed then .error .notDirectory else .ok (t.drop s.location)

end FileTree

end Classpath
