import Classpath.Text.Hex

namespace Classpath.Toml

/-! # TOML strings

A string stands between one or three quotes. Between double quotes a backslash starts an escape,
between single quotes it means itself; between three quotes newlines may stand, and the first one
right after the opening does not belong to the text. Each reader starts after the opening quotes
and gives the text and the rest after the closing quotes, one character at a time. A string that is
misspelt still has an end, where the text around it goes on. -/

open Text (hexDigit? scalar?)

/-- Controls that may not stand for themselves; the tab may. -/
def isControl (c : Char) : Bool :=
  (c.toNat < 0x20 && c ≠ '\t') || c = '\x7f'

def isSpace (c : Char) : Bool :=
  c = ' ' || c = '\t'

/-- Whether a line break starts at a character: a line feed, or a carriage return before one. -/
def isLineBreak (c : Char) (rest : List Char) : Bool :=
  c = '\n' || (c = '\r' && rest.head? = some '\n')

/-- A text that was read, and what comes after it. -/
abbrev Reading := Option (List Char × List Char)

/-- Puts a character in front of the text that was read. -/
def push (c : Char) (reading : Reading) : Reading :=
  reading.map fun (text, rest) => (c :: text, rest)

/-! ## Escapes -/

/-- The character that a one-letter escape names. -/
def shortEscape? : Char → Option Char
  | 'b' => some '\x08'
  | 't' => some '\t'
  | 'n' => some '\n'
  | 'f' => some '\x0c'
  | 'r' => some '\r'
  | 'e' => some '\x1b'
  | '"' => some '"'
  | '\\' => some '\\'
  | _ => none

/-- How many hexadecimal digits come after the letter of a numeric escape. -/
def escapeWidth? : Char → Option Nat
  | 'x' => some 2
  | 'u' => some 4
  | 'U' => some 8
  | _ => none

/-- Where a reader is: in plain text, after a backslash, before the last `left + 1` digits of an
escape whose digits so far are worth `value`, after a backslash that ends a line, or in the gap
after such a line, where line breaks and spaces are dropped. -/
inductive Place where
  | plain
  | escape
  | digits (left value : Nat)
  | lineEnd
  | gap
deriving Repr, DecidableEq

/-- The place after the letter of a numeric escape. -/
def afterLetter? (c : Char) : Option Place :=
  (escapeWidth? c).map fun width => .digits (width - 1) 0

/-! ## One line -/

/-- The text up to a double quote. -/
def readBasic : Place → List Char → Reading
  | _, [] => none
  | .escape, c :: cs =>
    match shortEscape? c with
    | some e => push e (readBasic .plain cs)
    | none => (afterLetter? c).bind fun place => readBasic place cs
  | .digits left value, c :: cs =>
    (hexDigit? c).bind fun d =>
      match left with
      | 0 => (scalar? (16 * value + d)).bind fun e => push e (readBasic .plain cs)
      | left + 1 => readBasic (.digits left (16 * value + d)) cs
  | _, c :: cs =>
    if c = '"' then some ([], cs)
    else if c = '\\' then readBasic .escape cs
    else if isControl c then none
    else push c (readBasic .plain cs)

/-- The text up to a single quote. -/
def readLiteral : List Char → Reading
  | [] => none
  | c :: cs =>
    if c = '\'' then some ([], cs)
    else if isControl c then none
    else push c (readLiteral cs)

/-! ## Several lines -/

/-- At three to five quotes, the end of a text: the last three close it and those before them
belong to it. -/
def closing? (quote : Char) (cs : List Char) : Reading :=
  let count := min 5 (cs.takeWhile (· = quote)).length
  if 3 ≤ count then some (List.replicate (count - 3) quote, cs.drop count) else none

/-- The text up to three double quotes. -/
def readMultiBasic : Place → List Char → Reading
  | _, [] => none
  | .escape, c :: cs =>
    if isSpace c then readMultiBasic .lineEnd cs
    else if isLineBreak c cs then readMultiBasic .gap cs
    else
      match shortEscape? c with
      | some e => push e (readMultiBasic .plain cs)
      | none => (afterLetter? c).bind fun place => readMultiBasic place cs
  | .digits left value, c :: cs =>
    (hexDigit? c).bind fun d =>
      match left with
      | 0 => (scalar? (16 * value + d)).bind fun e => push e (readMultiBasic .plain cs)
      | left + 1 => readMultiBasic (.digits left (16 * value + d)) cs
  | .lineEnd, c :: cs =>
    if isSpace c then readMultiBasic .lineEnd cs
    else if isLineBreak c cs then readMultiBasic .gap cs
    else none
  | place, c :: cs =>
    if place = .gap ∧ (isSpace c ∨ isLineBreak c cs) then readMultiBasic .gap cs
    else if c = '"' then
      match closing? '"' (c :: cs) with
      | some reading => some reading
      | none => push c (readMultiBasic .plain cs)
    else if c = '\\' then readMultiBasic .escape cs
    else if isControl c ∧ ¬ isLineBreak c cs then none
    else push c (readMultiBasic .plain cs)

/-- The text up to three single quotes. -/
def readMultiLiteral : List Char → Reading
  | [] => none
  | c :: cs =>
    if c = '\'' then
      match closing? '\'' (c :: cs) with
      | some reading => some reading
      | none => push c (readMultiLiteral cs)
    else if isControl c ∧ ¬ isLineBreak c cs then none
    else push c (readMultiLiteral cs)

/-- Drops one newline at the start. -/
def dropNewline : List Char → List Char
  | '\n' :: cs => cs
  | '\r' :: '\n' :: cs => cs
  | cs => cs

/-! ## All forms -/

/-- The text of a reading as a string. -/
def asString (reading : Reading) : Option (String × List Char) :=
  reading.map fun (text, rest) => (String.ofList text, rest)

/-- A string on one line at the start of a text. -/
def readLine : List Char → Option (String × List Char)
  | '"' :: cs => asString (readBasic .plain cs)
  | '\'' :: cs => asString (readLiteral cs)
  | _ => none

/-- A string at the start of a text, in any of the four forms. -/
def readString : List Char → Option (String × List Char)
  | '"' :: '"' :: '"' :: cs => asString (readMultiBasic .plain (dropNewline cs))
  | '\'' :: '\'' :: '\'' :: cs => asString (readMultiLiteral (dropNewline cs))
  | cs => readLine cs

/-! ## The ends of misspelt strings -/

/-- The rest after a string on one line; one that is not closed ends before the line feed. Where
backslashes have a meaning, `escaped` says that one stands just before. -/
def skipLine (quote : Char) (escapes escaped : Bool) : List Char → List Char
  | [] => []
  | c :: cs =>
    if c = '\n' then c :: cs
    else if escaped then skipLine quote escapes false cs
    else if c = quote then cs
    else skipLine quote escapes (escapes && c = '\\') cs

/-- The rest after a string on several lines; one that is not closed takes everything. -/
def skipLines (quote : Char) (escapes escaped : Bool) : List Char → List Char
  | [] => []
  | c :: cs =>
    if escaped then skipLines quote escapes false cs
    else if c = quote then
      match closing? quote (c :: cs) with
      | some (_, rest) => rest
      | none => skipLines quote escapes false cs
    else skipLines quote escapes (escapes && c = '\\') cs

/-- The rest after a string of which nothing but its end is looked at. -/
def skipString : List Char → List Char
  | '"' :: '"' :: '"' :: cs => skipLines '"' true false cs
  | '\'' :: '\'' :: '\'' :: cs => skipLines '\'' false false cs
  | '"' :: cs => skipLine '"' true false cs
  | '\'' :: cs => skipLine '\'' false false cs
  | cs => cs

end Classpath.Toml
