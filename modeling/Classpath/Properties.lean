import Classpath.OrderedMap
import Classpath.Text.Blank
import Classpath.Text.Hex
import Classpath.Text.Segments

namespace Classpath

/-! # Property texts

The line format of extension descriptors:

1. **Logical lines**: a line that ends in an odd number of backslashes loses the last one and goes
   on with the next line, whose leading blanks are dropped. Blank lines, and lines that start with
   `#` or `!`, are skipped unless they continue another line.
2. **Entries**: the key ends at the first `=`, `:` or blank that no backslash precedes; blanks and
   one `=` or `:` stand between key and value.
3. **Escapes**: `\t`, `\n`, `\r`, `\f` and a `\u` with four hexadecimal digits name a character, and
   a backslash before any other character is dropped. Key and value are trimmed last.

A later entry for a key replaces an earlier one. -/

abbrev PropertyMap := OrderedMap String String

namespace Properties

open Text (isBlank trimStart trim hexNumber? scalar?)

/-! ## Logical lines -/

/-- An odd number of backslashes at the end calls for another line. -/
def continues (line : List Char) : Bool :=
  (line.reverse.takeWhile (· = '\\')).length % 2 = 1

/-- Blank lines and comments carry no entry. -/
def isSkipped (line : List Char) : Bool :=
  match line with
  | [] => true
  | c :: _ => c = '#' || c = '!'

/-- The logical lines of a text cut into lines, where `pending` is a logical line that waits for its
next piece. -/
def logicalLines (pending : Option (List Char)) : List (List Char) → List (List Char)
  | [] => pending.toList
  | line :: rest =>
    match pending with
    | none =>
      let start := trimStart line
      if isSkipped start then logicalLines none rest
      else if continues start then logicalLines (some start.dropLast) rest
      else start :: logicalLines none rest
    | some sofar =>
      let whole := sofar ++ trimStart line
      if continues whole then logicalLines (some whole.dropLast) rest
      else whole :: logicalLines none rest

/-! ## Entries -/

def isSeparator (c : Char) : Bool :=
  c = '=' || c = ':' || isBlank c

/-- The text before the first separator that is not escaped, and the text from it on. -/
def splitKey : List Char → List Char × List Char
  | [] => ([], [])
  | '\\' :: c :: cs =>
    let (key, rest) := splitKey cs
    ('\\' :: c :: key, rest)
  | c :: cs =>
    if isSeparator c then ([], c :: cs)
    else
      let (key, rest) := splitKey cs
      (c :: key, rest)

/-- The value in the text from the separator on. -/
def valueOf (rest : List Char) : List Char :=
  match trimStart rest with
  | '=' :: value => value
  | ':' :: value => value
  | value => value

/-! ## Escapes -/

/-- The character whose number the digits spell; one plus sign may stand before the first digit. -/
def namedChar? (digits : List Char) : Option Char :=
  let bare := match digits with
    | '+' :: ds => ds
    | ds => ds
  if bare = [] then none else (hexNumber? 0 bare).bind scalar?

/-- What a `\u` with these digits stands for: the character, or the text as it is without the
backslash. -/
def unicodeEscape (digits : List Char) : List Char :=
  match namedChar? digits with
  | some c => [c]
  | none => 'u' :: digits

/-- What a backslash before this character stands for. -/
def plainEscape : Char → Char
  | 't' => '\t'
  | 'n' => '\n'
  | 'r' => '\r'
  | 'f' => '\x0c'
  | c => c

/-- Replaces the escapes of a key or a value. -/
def unescape : List Char → List Char
  | [] => []
  | '\\' :: 'u' :: a :: b :: c :: d :: cs => unicodeEscape [a, b, c, d] ++ unescape cs
  | '\\' :: 'u' :: short => unicodeEscape short
  | '\\' :: c :: cs => plainEscape c :: unescape cs
  | ['\\'] => []
  | c :: cs => c :: unescape cs

/-- The entry that a logical line holds. -/
def entryOf (line : List Char) : String × String :=
  let (key, rest) := splitKey line
  (String.ofList (trim (unescape key)), String.ofList (trim (unescape (valueOf rest))))

/-- The entries of a text, in order. -/
def entries (text : List Char) : List (String × String) :=
  (logicalLines none (Text.lines text)).map entryOf

/-- The map that a property text describes. -/
def parse (text : String) : PropertyMap :=
  .ofList (entries text.toList)

end Properties

end Classpath
