import Classpath.Decimal.Shortest

namespace Classpath

/-! # Documents

The values that TOML and JSON texts have in common, and the only way in which models and plans meet
either format: readers make documents, records are read out of documents, and writers start from
them. Entries of a table keep the order in which they stand in the list. -/

inductive Document where
  | null
  | boolean (value : Bool)
  | integer (value : Int)
  | float (value : Decimal.Binary64)
  /-- A number without a value: beyond what 128 bits or a finite floating point number can hold, or
  with digits that are none. -/
  | unreadable
  | text (value : String)
  | sequence (items : List Document)
  | table (entries : List (String × Document))
deriving Repr, Inhabited

/-- Why a text holds no document. -/
inductive TextFlaw where
  /-- It breaks a rule of its format, or a number in it has no value. -/
  | malformed
  /-- A dotted key in it has too many parts. -/
  | deepPath
deriving Repr, DecidableEq

/-- The text of a flaw; one of them ends with a line break. -/
def TextFlaw.message : TextFlaw → String
  | .malformed => "toml syntax error"
  | .deepPath => "recursion limit\n"

namespace Document

/-- The integers that fit 64 bits, with or without a sign. -/
def fitsWord (n : Int) : Bool :=
  -Nat.pow 2 63 ≤ n && n < Nat.pow 2 64

/-- The integers that fit 128 bits, with or without a sign. -/
def fitsDoubleWord (n : Int) : Bool :=
  -Nat.pow 2 127 ≤ n && n < Nat.pow 2 128

/-- The document of an integer literal. -/
def ofInteger (n : Int) : Document :=
  if fitsDoubleWord n then .integer n else .unreadable

/-- The document of a decimal fraction literal. -/
def ofDecimal (negative : Bool) (digits : Nat) (exponent : Int) : Document :=
  let value := Decimal.Binary64.ofDecimal negative digits exponent
  if value.isFinite then .float value else .unreadable

mutual

/-- Whether a document can be walked through: every number in it has a value. -/
def isReadable : Document → Bool
  | .unreadable => false
  | .sequence items => areReadable items
  | .table entries => entriesReadable entries
  | _ => true

def areReadable : List Document → Bool
  | [] => true
  | d :: ds => d.isReadable && areReadable ds

def entriesReadable : List (String × Document) → Bool
  | [] => true
  | (_, d) :: es => d.isReadable && entriesReadable es

end

end Document

end Classpath
