import Classpath.Text.Hex
import Classpath.Text.Printable

namespace Classpath.Text

/-! # Quoted texts

A text between double quotes on one line: quotes and backslashes have a backslash before them, the
common controls have their short escapes, and every other character without a visible form of its
own is given by its number. -/

/-- The letters that stand for a character after a backslash. -/
def quotedLetters : List (Char × Char) :=
  [('"', '"'), ('\\', '\\'), ('\n', 'n'), ('\t', 't'), ('\r', 'r'), ('\x00', '0')]

/-- The number of a character between braces. -/
def numbered (c : Char) : List Char :=
  '\x7b' :: hexDigits c.toNat ++ ['\x7d']

/-- How one character stands in a quoted text. -/
def quotedChar (c : Char) : List Char :=
  match quotedLetters.lookup c with
  | some letter => ['\\', letter]
  | none => if isPrintable c then [c] else '\\' :: 'u' :: numbered c

def quoted (s : String) : String :=
  String.ofList (['"'] ++ s.toList.flatMap quotedChar ++ ['"'])

end Classpath.Text
