import Classpath.Toml.Draft
import Classpath.Toml.Moment
import Classpath.Toml.Quoting

namespace Classpath.Toml

/-! # TOML texts

Reading goes in two steps: a text is read as statements, and the statements are put together to a
document. A text in which the parts of a statement do not have their places is no document, whatever
else it holds. Keys and values that are misspelt, and most of those that are missing, leave the
statement its shape, but not its meaning. Of all statements that have none or are at odds with
others, the first is the flaw of the text.

Lists of parts are read in loops that go on only with a shorter rest of the text; every part has at
least one character, so this never cuts a text short. Arrays and inline tables nest at most 80 deep,
and a path has fewer than 80 keys. -/

/-! ## Between the parts -/

def skipSpaces (cs : List Char) : List Char :=
  cs.dropWhile isSpace

/-- Drops spaces, line breaks and comments; none if a comment holds a control or a carriage return
stands alone. -/
def skipBlanks (inComment : Bool) : List Char → Option (List Char)
  | [] => some []
  | c :: cs =>
    if isLineBreak c cs then skipBlanks (inComment && c = '\r') cs
    else if inComment then (if isControl c then none else skipBlanks true cs)
    else if isSpace c then skipBlanks false cs
    else if c = '#' then skipBlanks true cs
    else some (c :: cs)

/-- The rest after the comment that may end a line, from the line break on. -/
def skipComment : List Char → Option (List Char)
  | [] => some []
  | c :: cs =>
    if isLineBreak c cs then some (c :: cs)
    else if isControl c then none
    else skipComment cs

/-- The rest after the end of a statement: spaces, perhaps a comment, and a line break or the end of
the text. -/
def endStatement (cs : List Char) : Option (List Char) :=
  let afterSpaces := skipSpaces cs
  let afterComment :=
    match afterSpaces with
    | '#' :: comment => skipComment comment
    | _ => some afterSpaces
  afterComment.bind fun
    | [] => some []
    | '\n' :: rest => some rest
    | '\r' :: '\n' :: rest => some rest
    | _ => none

/-! ## Words -/

/-- The characters that no word has. -/
def isDelimiter (c : Char) : Bool :=
  isSpace c || c = '\n' || c = '\r' || c = '=' || c = ',' || c = '#' ||
    c = '[' || c = ']' || c = '\x7b' || c = '\x7d'

def isQuote (c : Char) : Bool :=
  c = '"' || c = '\''

/-- Whether a word starts with a character after spaces. -/
def startsWord (c : Char) : Bool :=
  !isDelimiter c && !isQuote c && c ≠ '.'

/-- The words at the start of a text with the spaces between them, and the rest. Quotes within a
word belong to it, but after a point they would start a string. -/
def splitWords (afterPoint : Bool) : List Char → List Char × List Char
  | [] => ([], [])
  | c :: cs =>
    if isSpace c ∧ (skipSpaces cs).head?.any startsWord ∨
        ¬ isDelimiter c ∧ ¬ (afterPoint ∧ isQuote c) then
      let (words, rest) := splitWords (c = '.') cs
      (c :: words, rest)
    else ([], c :: cs)

/-- The rest of a text from the end of the line on, whatever stands before it. Strings are passed
over as a whole, also those on several lines; they start where no word goes on. -/
def skipToLineEnd (inWord : Bool) : List Char → Option (List Char)
  | [] => some []
  | c :: cs =>
    if isLineBreak c cs then some (c :: cs)
    else if c = '\r' then none
    else if c = '#' then skipComment cs
    else if isQuote c ∧ ¬ inWord then
      if _h : (skipString (c :: cs)).length ≤ cs.length then
        skipToLineEnd false (skipString (c :: cs))
      else none
    else skipToLineEnd (!isDelimiter c && c ≠ '.') cs
termination_by cs => cs.length
decreasing_by all_goals (simp only [List.length_cons]; omega)

/-! ## Keys -/

def isKeyChar (c : Char) : Bool :=
  !isDelimiter c && c ≠ '.'

/-- A string at the start of a text, in the forms that a reader knows. -/
def readQuoted (read : List Char → Option (String × List Char)) (cs : List Char) :
    Except TextFlaw String × List Char :=
  match read cs with
  | some (s, rest) => (.ok s, rest)
  | none => (.error .malformed, skipString cs)

/-- A key: a word of certain characters, or a string on one line. A string on several lines stands
in the place of a key but is none, and neither is a word without characters. -/
def readKey : List Char → Except TextFlaw String × List Char
  | '"' :: '"' :: '"' :: cs => (.error .malformed, skipString ('"' :: '"' :: '"' :: cs))
  | '\'' :: '\'' :: '\'' :: cs => (.error .malformed, skipString ('\'' :: '\'' :: '\'' :: cs))
  | '"' :: cs => readQuoted readLine ('"' :: cs)
  | '\'' :: cs => readQuoted readLine ('\'' :: cs)
  | cs =>
    let word := cs.takeWhile isKeyChar
    let name := if word ≠ [] ∧ word.all isBareKeyChar then some (String.ofList word) else none
    (orMalformed name, cs.dropWhile isKeyChar)

/-- The path and the last key of a dotted key. -/
abbrev Dotted := List String × String

/-- What stands in the place of a dotted key. -/
structure KeyReading where
  meaning : Except TextFlaw Dotted
  /-- Whether there is anything in the place of the last key. -/
  hasLast : Bool
  /-- The rest after the spaces that come after the key. -/
  rest : List Char

/-- A dotted key with the spaces after it; every key of it may be missing. -/
def readDotted (cs : List Char) : KeyReading :=
  let (key, rest) := readKey cs
  match skipSpaces rest with
  | '.' :: more =>
    let next := skipSpaces more
    if next.length < cs.length then
      let following := readDotted next
      let meaning := key.bind fun key =>
        following.meaning.map fun (path, last) => (key :: path, last)
      ⟨meaning, following.hasLast, following.rest⟩
    else ⟨.error .malformed, false, []⟩
  | rest => ⟨key.map fun key => ([], key), cs.head?.any isKeyChar, rest⟩
termination_by cs.length

/-- The longest path before the last key. -/
def pathLimit : Nat := 80

def checkDepth (dotted : Dotted) : Except TextFlaw Dotted :=
  if dotted.1.length < pathLimit then .ok dotted else .error .deepPath

/-- A dotted key with a path below the limit. -/
def readPath (cs : List Char) : KeyReading :=
  let reading := readDotted cs
  ⟨reading.meaning.bind checkDepth, reading.hasLast, reading.rest⟩

/-! ## Values without quotes or brackets -/

/-- A part of a text that has its place there: its meaning, unless it is misspelt, and the rest of
the text after it. None stands for a text in which no such part has its place. -/
abbrev Placed (α : Type) := Option (Except TextFlaw α × List Char)

/-- The value of words. -/
def readWords (words : List Char) : Option Document :=
  if words = "true".toList then some (.boolean true)
  else if words = "false".toList then some (.boolean false)
  else
    match readNumber words with
    | some d => some d
    | none => (readMoment words).map momentDocument

/-- A value without quotes or brackets. -/
def readPlain (cs : List Char) : Placed Document :=
  let (words, rest) := splitWords false cs
  if words = [] then none else some (orMalformed (readWords words), rest)

/-! ## Arrays and inline tables -/

/-- A reader of a value at the start of a text. -/
abbrev ValueReader := List Char → Placed Document

/-- The items of an array after its opening bracket. -/
def readArray (readItem : ValueReader) (cs : List Char) : Placed (List Document) :=
  (skipBlanks false cs).bind fun
    | ']' :: rest => some (.ok [], rest)
    | start =>
      (readItem start).bind fun (item, rest) =>
        (skipBlanks false rest).bind fun
          | ']' :: rest => some (item.map fun item => [item], rest)
          | ',' :: next =>
            if next.length < cs.length then
              (readArray readItem next).map fun (items, rest) =>
                (item.bind fun item => items.map fun items => item :: items, rest)
            else none
          | _ => none
termination_by cs.length

/-- What stands in the place of a statement, and the rest after it. None stands for a text in which
no statement has its place. -/
abbrev StatementReading := Option (Except Misspelt Statement × List Char)

/-- The entry of a key and a value, of which the key is looked at first. -/
def entryOf (dotted : Except TextFlaw Dotted) (value : Except TextFlaw Document) :
    Except Misspelt Statement :=
  (dotted.bind fun (path, key) => value.map fun d => .entry path key d).mapError .entry

/-- The entry of a key to which no value was given. -/
def entryWithoutValue (dotted : Except TextFlaw Dotted) : Except Misspelt Statement :=
  entryOf dotted (.error .malformed)

/-- An entry of an inline table. Line breaks and comments may stand everywhere but within the dotted
key. Only the last entry may lack its value, with the sign or without it. -/
def readInlineEntry (readItem : ValueReader) (cs : List Char) : StatementReading :=
  let key := readPath cs
  (skipBlanks false key.rest).bind fun
    | '=' :: rest =>
      (skipBlanks false rest).bind fun
        | '\x7d' :: rest => some (entryWithoutValue key.meaning, '\x7d' :: rest)
        | start => (readItem start).map fun (item, rest) => (entryOf key.meaning item, rest)
    | '\x7d' :: rest => some (entryWithoutValue key.meaning, '\x7d' :: rest)
    | _ => none

/-- The entries of an inline table after its opening brace. -/
def readInline (readItem : ValueReader) (cs : List Char) :
    Option (List (Except Misspelt Statement) × List Char) :=
  (skipBlanks false cs).bind fun
    | '\x7d' :: rest => some ([], rest)
    | start =>
      (readInlineEntry readItem start).bind fun (entry, rest) =>
        (skipBlanks false rest).bind fun
          | '\x7d' :: rest => some ([entry], rest)
          | ',' :: next =>
            if next.length < cs.length then
              (readInline readItem next).map fun (entries, rest) => (entry :: entries, rest)
            else none
          | _ => none
termination_by cs.length

/-- A string as a value. -/
def readText (cs : List Char) : Except TextFlaw Document × List Char :=
  let (s, rest) := readQuoted readString cs
  (s.map .text, rest)

/-- A value, with arrays and inline tables nested at most so deep. -/
def readValue : Nat → ValueReader
  | _, '"' :: cs => some (readText ('"' :: cs))
  | _, '\'' :: cs => some (readText ('\'' :: cs))
  | 0, '[' :: _ => none
  | 0, '\x7b' :: _ => none
  | depth + 1, '[' :: cs =>
    (readArray (readValue depth) cs).map fun (items, rest) => (items.map .sequence, rest)
  | depth + 1, '\x7b' :: cs =>
    (readInline (readValue depth) cs).map fun (entries, rest) => (inlineTable entries, rest)
  | _, cs => readPlain cs

def nestingLimit : Nat := 80

/-! ## Statements -/

/-- Whether a value is missing where one should start: the end of the line is there, or a comma. -/
def lacksValue : List Char → Bool
  | [] => true
  | c :: cs => isLineBreak c cs || c = '#' || c = ','

/-- An entry on a line of its own. After a missing value the rest of the line is passed over. -/
def readEntry (cs : List Char) : StatementReading :=
  let key := readPath cs
  match key.rest with
  | '=' :: rest =>
    let start := skipSpaces rest
    if lacksValue start then
      (skipToLineEnd false start).map fun rest => (entryWithoutValue key.meaning, rest)
    else (readValue nestingLimit start).map fun (item, rest) => (entryOf key.meaning item, rest)
  | _ => none

/-- A header without a closing bracket, which only a last key that is missing excuses. The rest of
the line is passed over. -/
def readUnclosed (key : KeyReading) : StatementReading :=
  if key.hasLast then none
  else (skipToLineEnd false key.rest).map fun rest => (.error (.header .malformed), rest)

/-- The statement at the start of a line, and the rest after it on the line. -/
def readStatement : List Char → StatementReading
  | '[' :: '[' :: cs =>
    let key := readPath (skipSpaces cs)
    let header := (key.meaning.map fun (path, key) => .element path key).mapError .header
    match key.rest with
    | ']' :: ']' :: rest => some (header, rest)
    | ']' :: _ => none
    | _ => readUnclosed key
  | '[' :: cs =>
    let key := readPath (skipSpaces cs)
    let header := (key.meaning.map fun (path, key) => .table path key).mapError .header
    match key.rest with
    | ']' :: rest => some (header, rest)
    | _ => readUnclosed key
  | cs => readEntry cs

/-- The statements of a text. -/
def readStatements (cs : List Char) : Option (List (Except Misspelt Statement)) :=
  (skipBlanks false cs).bind fun
    | [] => some []
    | start =>
      (readStatement start).bind fun (statement, rest) =>
        (endStatement rest).bind fun next =>
          if next.length < cs.length then
            (readStatements next).map fun statements => statement :: statements
          else none
termination_by cs.length

/-- Drops a byte order mark at the start. -/
def dropMark : List Char → List Char
  | '\uFEFF' :: cs => cs
  | cs => cs

/-- The entries of the document that a text spells, or the flaw of the text. -/
def read (text : String) : Except TextFlaw (List (String × Document)) :=
  match readStatements (dropMark text.toList) with
  | none => .error .malformed
  | some statements => Draft.ofStatements statements

end Classpath.Toml
