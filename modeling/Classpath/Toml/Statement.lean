import Classpath.Document

namespace Classpath.Toml

/-! # TOML statements

A TOML text is a list of statements. An entry assigns a value within the table that is open, and a
header opens a table or the next element of an array of tables. Keys come as the path to a table
and the last key. -/

inductive Statement where
  /-- `path.key = value`, seen from the open table. -/
  | entry (path : List String) (key : String) (value : Document)
  /-- `[path.key]`, seen from the root. -/
  | table (path : List String) (key : String)
  /-- `[[path.key]]`, seen from the root. -/
  | element (path : List String) (key : String)
deriving Repr

/-- A statement without a meaning, of which only the kind is known. -/
inductive Misspelt where
  | entry (flaw : TextFlaw)
  | header (flaw : TextFlaw)
deriving Repr

/-- A meaning, or the flaw of what has none. -/
def orMalformed {α : Type} (meaning : Option α) : Except TextFlaw α :=
  meaning.elim (.error .malformed) .ok

end Classpath.Toml
