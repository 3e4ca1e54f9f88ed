import Classpath.Document.Record
import Classpath.Toml.Quoting
import Classpath.Toml.Statement

namespace Classpath.Toml

/-! # Writing TOML

The other way round: the entries of a table become statements, and statements become lines. Within
a table the plain values come first, then the tables and arrays of tables, each part in the order of
the entries; an array is one of tables if it has elements and all of them are tables. TOML has no
null, so an entry without a value is left out. -/

/-! ## Statements of a document -/

def isTable : Document → Bool
  | .table _ => true
  | _ => false

/-- Whether a value gets headers of its own. -/
def hasHeaders : Document → Bool
  | .table _ => true
  | .sequence items => !items.isEmpty && items.all isTable
  | _ => false

def isNull : Document → Bool
  | .null => true
  | _ => false

/-- The entries with plain values. -/
def plainEntries (entries : List (String × Document)) : List Statement :=
  (entries.filter fun e => !hasHeaders e.2 && !isNull e.2).map fun e => .entry [] e.1 e.2

mutual

/-- The statements of a value with headers, under its path and key. -/
def headed (path : List String) (key : String) : Document → List Statement
  | .table entries =>
    .table path key :: plainEntries entries ++ headedEntries (path ++ [key]) entries
  | .sequence items => headedItems path key items
  | _ => []

/-- The statements of the elements of an array of tables. -/
def headedItems (path : List String) (key : String) : List Document → List Statement
  | [] => []
  | .table entries :: items =>
    .element path key :: plainEntries entries ++ headedEntries (path ++ [key]) entries ++
      headedItems path key items
  | _ :: _ => []

/-- The statements of the entries with headers. -/
def headedEntries (path : List String) : List (String × Document) → List Statement
  | [] => []
  | (key, d) :: es =>
    (if hasHeaders d then headed path key d else []) ++ headedEntries path es

end

/-- The statements that describe a table with these entries. -/
def statements (entries : List (String × Document)) : List Statement :=
  plainEntries entries ++ headedEntries [] entries

/-! ## Values -/

/-- A floating point number, with the words that TOML has for the values without digits. -/
def writtenFloat (x : Decimal.Binary64) : List Char :=
  match x with
  | .nan => "nan".toList
  | x => (x.text Document.Format.toml.numberStyle).toList

mutual

/-- A value on one line. -/
def writtenValue : Document → List Char
  | .null => []
  | .boolean value => (Document.booleanText value).toList
  | .integer n => (Document.integerText n).toList
  | .float x => writtenFloat x
  | .unreadable => "inf".toList
  | .text value => writtenText value.toList
  | .sequence items => '[' :: writtenItems items ++ [']']
  | .table entries => "\x7b ".toList ++ writtenEntries entries ++ " \x7d".toList

def writtenItems : List Document → List Char
  | [] => []
  | [d] => writtenValue d
  | d :: ds => writtenValue d ++ ", ".toList ++ writtenItems ds

def writtenEntries : List (String × Document) → List Char
  | [] => []
  | [(key, d)] => writtenKey key.toList ++ " = ".toList ++ writtenValue d
  | (key, d) :: es =>
    writtenKey key.toList ++ " = ".toList ++ writtenValue d ++ ", ".toList ++ writtenEntries es

end

/-! ## Lines -/

/-- A path with its last key, with points between the keys. -/
def writtenPath (path : List String) (key : String) : List Char :=
  Text.joined ['.'] ((path ++ [key]).map fun k => writtenKey k.toList)

/-- A statement on its line, under a blank line if it is a header. -/
def writtenStatement : Statement → List Char
  | .entry path key d => writtenPath path key ++ " = ".toList ++ writtenValue d ++ ['\n']
  | .table path key => "\n[".toList ++ writtenPath path key ++ "]\n".toList
  | .element path key => "\n[[".toList ++ writtenPath path key ++ "]]\n".toList

/-- The text of a document. -/
def write (entries : List (String × Document)) : String :=
  String.ofList ((statements entries).flatMap writtenStatement)

end Classpath.Toml
