import Classpath.Document.Record
import Classpath.Text.Hex

namespace Classpath.Json

/-! # Writing JSON

A document as JSON with one value on a line, indented by two blanks for each level. Sequences and
tables without content stay on their line. -/

/-! ## Strings -/

/-- The letters that stand for a character after a backslash. -/
def letters : List (Char × Char) :=
  [('"', '"'), ('\\', '\\'), ('\n', 'n'), ('\t', 't'), ('\r', 'r'), ('\x08', 'b'), ('\x0c', 'f')]

/-- How one character stands in a string; only controls without a letter are given by number. -/
def escaped (c : Char) : List Char :=
  match letters.lookup c with
  | some letter => ['\\', letter]
  | none =>
    if c.toNat < 0x20 then "\\u00".toList ++ Text.hexByte (UInt8.ofNat c.toNat) else [c]

def writtenText (s : String) : List Char :=
  '"' :: s.toList.flatMap escaped ++ ['"']

/-! ## Values -/

/-- A line break and the blanks of a level. -/
def newline (level : Nat) : List Char :=
  '\n' :: List.replicate (2 * level) ' '

/-- A floating point number; JSON has none that is not finite. -/
def writtenFloat (x : Decimal.Binary64) : List Char :=
  if x.isFinite then (x.text Document.Format.json.numberStyle).toList else "null".toList

mutual

/-- A value whose first line stands at a level. -/
def written (level : Nat) : Document → List Char
  | .null => "null".toList
  | .boolean value => (Document.booleanText value).toList
  | .integer n => (Document.integerText n).toList
  | .float x => writtenFloat x
  | .unreadable => "null".toList
  | .text value => writtenText value
  | .sequence [] => "[]".toList
  | .sequence items => '[' :: writtenItems (level + 1) items ++ newline level ++ [']']
  | .table [] => "\x7b\x7d".toList
  | .table entries => '\x7b' :: writtenEntries (level + 1) entries ++ newline level ++ ['\x7d']

/-- Items at a level, each on a new line. -/
def writtenItems (level : Nat) : List Document → List Char
  | [] => []
  | [d] => newline level ++ written level d
  | d :: ds => newline level ++ written level d ++ ',' :: writtenItems level ds

/-- Entries at a level, each on a new line. -/
def writtenEntries (level : Nat) : List (String × Document) → List Char
  | [] => []
  | [(key, d)] => newline level ++ writtenText key ++ ": ".toList ++ written level d
  | (key, d) :: es =>
    newline level ++ writtenText key ++ ": ".toList ++ written level d ++
      ',' :: writtenEntries level es

end

/-- The text of a document. -/
def write (d : Document) : String :=
  String.ofList (written 0 d)

end Classpath.Json
