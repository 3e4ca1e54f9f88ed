import Classpath.OrderedMap
import Classpath.Toml.Statement

namespace Classpath.Toml

/-! # Documents from statements

While statements come in, it matters how a table came to be: a header may open a table that other
headers only mentioned on their way, but none that was opened before, that dotted keys made or that
was written as a value; dotted keys may go on in tables that they made. A draft keeps this, and the
document made from it forgets it. Each table has its entries in increasing order of keys. -/

/-- How a table came to be, if not as a value. -/
inductive Origin where
  /-- Opened by a header of its own. -/
  | opened
  /-- On the way of a header to another table. -/
  | mentioned
  /-- Made by a dotted key. -/
  | dotted
deriving Repr, DecidableEq

inductive Draft where
  | value (d : Document)
  | table (origin : Origin) (entries : List (String × Draft))
  /-- An array of tables: those that are complete, and the last one. -/
  | tables (done : List (List (String × Draft))) (last : List (String × Draft))

abbrev Entries := List (String × Draft)

namespace Draft

open OrderedMap (insertInto lookIn)

/-! ## One statement -/

/-- Changes the table at the end of a path. Tables that are missing on the way are made, and an
array of tables is entered at its last element. -/
def update (change : Entries → Option Entries) : List String → Entries → Option Entries
  | [], es => change es
  | k :: ks, es =>
    match lookIn k es with
    | none => (update change ks []).map fun inner => insertInto k (.table .mentioned inner) es
    | some (.table origin inner) =>
      (update change ks inner).map fun inner => insertInto k (.table origin inner) es
    | some (.tables done last) =>
      (update change ks last).map fun last => insertInto k (.tables done last) es
    | some (.value _) => none

/-- Adds a value at the end of a path of dotted keys. The table that takes it has to be the open one
or one that dotted keys made. -/
def assign (takes : Bool) (key : String) (d : Document) : List String → Entries → Option Entries
  | [], es =>
    if takes ∧ (lookIn key es).isNone then some (insertInto key (.value d) es) else none
  | k :: ks, es =>
    match lookIn k es with
    | none => (assign true key d ks []).map fun inner => insertInto k (.table .dotted inner) es
    | some (.table .dotted inner) =>
      (assign true key d ks inner).map fun inner => insertInto k (.table .dotted inner) es
    | some (.table .mentioned inner) =>
      (assign false key d ks inner).map fun inner => insertInto k (.table .mentioned inner) es
    | some (.tables done last) =>
      (assign false key d ks last).map fun last => insertInto k (.tables done last) es
    | some _ => none

/-- Opens a table that is new or was only mentioned. -/
def openTable (key : String) (es : Entries) : Option Entries :=
  match lookIn key es with
  | none => some (insertInto key (.table .opened []) es)
  | some (.table .mentioned inner) => some (insertInto key (.table .opened inner) es)
  | some _ => none

/-- Adds an element to an array of tables, which it starts if there is none. -/
def addElement (key : String) (element es : Entries) : Option Entries :=
  match lookIn key es with
  | none => some (insertInto key (.tables [] element) es)
  | some (.tables done last) => some (insertInto key (.tables (done ++ [last]) element) es)
  | some _ => none

/-! ## All statements -/

/-- The open table. -/
inductive Target where
  /-- A table of the document. -/
  | inside (path : List String)
  /-- The next element of an array of tables, with its entries so far. The array takes it when it is
  complete, and only then does it matter whether it can. -/
  | element (path : List String) (key : String) (entries : Entries)

/-- The root table and the open table. -/
structure State where
  root : Entries
  target : Target

/-- Changes the open table. -/
def State.change (s : State) (f : Entries → Option Entries) : Option State :=
  match s.target with
  | .inside path => (update f path s.root).map fun root => ⟨root, .inside path⟩
  | .element path key entries => (f entries).map fun es => ⟨s.root, .element path key es⟩

/-- The root table once the open table is complete. -/
def State.complete (s : State) : Option Entries :=
  match s.target with
  | .inside _ => some s.root
  | .element path key entries => update (addElement key entries) path s.root

/-- A header completes the table above it. -/
def State.step (s : State) : Statement → Option State
  | .entry path key d => s.change (assign true key d path)
  | .table path key =>
    s.complete.bind fun root =>
      (update (openTable key) path root).map fun root => ⟨root, .inside (path ++ [key])⟩
  | .element path key => s.complete.map fun root => ⟨root, .element path key []⟩

/-- Takes a statement, unless it is misspelt or at odds with those before it. A misspelt header
completes the table above it too, and the flaw of that table comes first. -/
def State.take (s : State) : Except Misspelt Statement → Except TextFlaw State
  | .ok statement => orMalformed (s.step statement)
  | .error (.entry flaw) => .error flaw
  | .error (.header flaw) => (orMalformed s.complete).bind fun _ => .error flaw

/-! ## Closing -/

mutual

/-- The document of a draft. -/
def close : Draft → Document
  | .value d => d
  | .table _ es => .table (closeEntries es)
  | .tables done last => .sequence (closeTables done ++ [.table (closeEntries last)])

def closeEntries : List (String × Draft) → List (String × Document)
  | [] => []
  | (k, d) :: es => (k, d.close) :: closeEntries es

def closeTables : List (List (String × Draft)) → List Document
  | [] => []
  | t :: ts => .table (closeEntries t) :: closeTables ts

end

/-- The entries of the document that some statements describe, or the first flaw. -/
def ofStatements (statements : List (Except Misspelt Statement)) :
    Except TextFlaw (List (String × Document)) := do
  let s ← statements.foldlM State.take ⟨[], .inside []⟩
  let root ← orMalformed s.complete
  return closeEntries root

end Draft

/-- The table that the entries of an inline table describe. -/
def inlineTable (entries : List (Except Misspelt Statement)) : Except TextFlaw Document :=
  (Draft.ofStatements entries).map .table

end Classpath.Toml
