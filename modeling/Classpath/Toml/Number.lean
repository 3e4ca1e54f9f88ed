import Classpath.Document
import Classpath.Text.Hex
import Classpath.Text.Segments

namespace Classpath.Toml

/-! # TOML numbers

Integers are decimal with an optional sign, or hexadecimal, octal or binary without one. A floating
point number has a fraction, an exponent or both, or is one of the words `inf` and `nan`. Single
underscores may stand between digits, and a decimal integer does not start with a spare zero.

Some words have the shape of an integer but no value: the mark of a base without digits, and groups
of digits with other characters in them. They may stand wherever nothing looks at their value. -/

open Text (hexDigit?)

def isDigitOf (base : Nat) (c : Char) : Bool :=
  (hexDigit? c).any (· < base)

/-- The digits without the underscores between them. -/
def ungroup (base : Nat) : List Char → Option (List Char)
  | [] => none
  | [c] => if isDigitOf base c then some [c] else none
  | c :: '_' :: cs => if isDigitOf base c then (ungroup base cs).map (c :: ·) else none
  | c :: cs => if isDigitOf base c then (ungroup base cs).map (c :: ·) else none

/-- The number that digits spell. -/
def numeral (base : Nat) (digits : List Char) : Nat :=
  digits.foldl (fun n c => base * n + (hexDigit? c).getD 0) 0

/-- The digits before a point or of a decimal integer, which have no spare zeros. -/
def wholeDigits (cs : List Char) : Option (List Char) :=
  match ungroup 10 cs with
  | some ('0' :: _ :: _) => none
  | digits => digits

/-! ## Fractions and exponents -/

/-- The exponent that stands after the letter; its digits may start with zeros. -/
def readExponent : List Char → Option Int
  | '+' :: cs => (ungroup 10 cs).map fun ds => (numeral 10 ds : Int)
  | '-' :: cs => (ungroup 10 cs).map fun ds => -(numeral 10 ds : Int)
  | cs => (ungroup 10 cs).map fun ds => (numeral 10 ds : Int)

/-- The exponent after the digits, zero if there is no letter. -/
def exponentPart : List Char → Option Int
  | [] => some 0
  | _ :: cs => readExponent cs

/-- The digits after the point, none if there is no point. -/
def fractionPart : List Char → Option (List Char)
  | [] => some []
  | _ :: cs => ungroup 10 cs

def isExponentLetter (c : Char) : Bool :=
  c = 'e' || c = 'E'

/-- A number after its sign that has a fraction or an exponent. -/
def readFraction (negative : Bool) (cs : List Char) : Option Document :=
  let mantissa := cs.takeWhile fun c => !isExponentLetter c
  let afterMantissa := cs.dropWhile fun c => !isExponentLetter c
  let whole := mantissa.takeWhile (· ≠ '.')
  let afterWhole := mantissa.dropWhile (· ≠ '.')
  if afterWhole = [] ∧ afterMantissa = [] then none
  else
    match wholeDigits whole, fractionPart afterWhole, exponentPart afterMantissa with
    | some digits, some fraction, some exponent =>
      some (.ofDecimal negative (numeral 10 (digits ++ fraction)) (exponent - fraction.length))
    | _, _, _ => none

/-! ## Integers without a value -/

/-- Whether groups of digits start with a hexadecimal digit and all but the last end with one. -/
def areGroups : List (List Char) → Bool
  | [] => true
  | g :: gs =>
    g.head?.any (isDigitOf 16) && (gs.isEmpty || g.getLast?.any (isDigitOf 16)) && areGroups gs

/-- Whether a word after its sign has the shape of a decimal integer in two or more groups. The
groups after the first are looked at on their edges alone; a point, an `e` or a space would make it
something else. -/
def looksGrouped (cs : List Char) : Bool :=
  !cs.any (fun c => c = '.' || isExponentLetter c || c = ' ') &&
    match Text.segments '_' cs with
    | [] => false
    | g :: gs =>
      !gs.isEmpty && g ≠ [] && g.head? ≠ some '0' && g.all (isDigitOf 10) && areGroups gs

/-! ## All numbers -/

/-- A decimal number after its sign, with a value or without. -/
def readDecimal (negative : Bool) (cs : List Char) : Option Document :=
  match wholeDigits cs with
  | some digits =>
    let size : Int := numeral 10 digits
    some (.ofInteger (if negative then -size else size))
  | none =>
    if looksGrouped cs then some .unreadable else readFraction negative cs

/-- A number without sign, or after one. -/
def readUnsigned (negative : Bool) (cs : List Char) : Option Document :=
  if cs = ['i', 'n', 'f'] then some (.float (.infinite negative))
  else if cs = ['n', 'a', 'n'] then some (.float .nan)
  else readDecimal negative cs

/-- The integer whose digits come after the mark of its base. -/
def readBased (base : Nat) (cs : List Char) : Option Document :=
  if cs = [] then some .unreadable
  else (ungroup base cs).map fun digits => .ofInteger (numeral base digits)

def readNumber : List Char → Option Document
  | '+' :: cs => readUnsigned false cs
  | '-' :: cs => readUnsigned true cs
  | '0' :: 'x' :: cs => readBased 16 cs
  | '0' :: 'o' :: cs => readBased 8 cs
  | '0' :: 'b' :: cs => readBased 2 cs
  | cs => readUnsigned false cs

end Classpath.Toml
