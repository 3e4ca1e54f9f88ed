import Classpath.Text.Hex
import Classpath.Toml.Text

namespace Classpath.Toml

/-! # Quoting

How a text is written: in the first of the four string forms that needs no escapes, and with escapes
where none does. Keys stay bare where they can. -/

/-! ## Choosing a form -/

inductive Form where
  | basic
  | literal
  | multiBasic
  | multiLiteral
deriving Repr, DecidableEq

/-- Controls that only an escape can write: neither tabs nor line feeds. -/
def isRawControl (c : Char) : Bool :=
  isControl c && c ≠ '\n'

/-- Whether a text has three of a character in a row, the first `run` of which came before. -/
def hasTriple (quote : Char) (run : Nat) : List Char → Bool
  | [] => false
  | c :: cs =>
    if c = quote then run = 2 || hasTriple quote (run + 1) cs else hasTriple quote 0 cs

/-- The form in which a text is written. -/
def formOf (cs : List Char) : Form :=
  let control := cs.any isRawControl
  let newline := cs.contains '\n'
  let backslash := cs.contains '\\'
  if !control && !backslash && !cs.contains '"' && !newline then .basic
  else if !control && !cs.contains '\'' && !newline then .literal
  else if !control && !backslash && !hasTriple '"' 0 cs then .multiBasic
  else if !control && !hasTriple '\'' 0 cs then .multiLiteral
  else if newline then .multiBasic
  else .basic

/-! ## Escapes -/

/-- A control by its number, in four upper-case digits. -/
def numericEscape (c : Char) : List Char :=
  ['\\', 'u', '0', '0'] ++ (Text.hexByte (UInt8.ofNat c.toNat)).map Char.toUpper

/-- The escapes that both basic forms have in common; any other character stands for itself. -/
def escaped (c : Char) : List Char :=
  if c = '\x08' then ['\\', 'b']
  else if c = '\t' then ['\\', 't']
  else if c = '\x0c' then ['\\', 'f']
  else if c = '\r' then ['\\', 'r']
  else if c = '\\' then ['\\', '\\']
  else if isRawControl c then numericEscape c
  else [c]

/-- The characters of a string on one line. -/
def escapedLine (c : Char) : List Char :=
  if c = '\n' then ['\\', 'n']
  else if c = '"' then ['\\', '"']
  else escaped c

/-- The characters of a string on several lines, where only each third quote in a row needs an
escape; `run` counts the quotes without one just before. -/
def escapedLines (run : Nat) : List Char → List Char
  | [] => []
  | c :: cs =>
    if c = '"' then
      if run = 2 then '\\' :: '"' :: escapedLines 0 cs else '"' :: escapedLines (run + 1) cs
    else escaped c ++ escapedLines 0 cs

/-! ## Strings -/

/-- A text between quotes that open on a line of their own if there is a line break in it. -/
def between (quotes : List Char) (cs body : List Char) : List Char :=
  let opening := if cs.contains '\n' then quotes ++ ['\n'] else quotes
  opening ++ body ++ quotes

/-- A text in a given form. -/
def writtenAs (cs : List Char) : Form → List Char
  | .basic => '"' :: cs.flatMap escapedLine ++ ['"']
  | .literal => '\'' :: cs ++ ['\'']
  | .multiBasic => between ['"', '"', '"'] cs (escapedLines 0 cs)
  | .multiLiteral => between ['\'', '\'', '\''] cs cs

/-- A text as a string value. -/
def writtenText (cs : List Char) : List Char :=
  writtenAs cs (formOf cs)

/-! ## Keys -/

def isBareKeyChar (c : Char) : Bool :=
  c.isAlphanum || c = '_' || c = '-'

/-- A key: bare, or in the first form on one line that needs no escapes, or with escapes. -/
def writtenKey (cs : List Char) : List Char :=
  let control := cs.any isControl
  if cs ≠ [] ∧ cs.all isBareKeyChar then cs
  else if !control && !cs.contains '"' && !cs.contains '\\' then writtenAs cs .basic
  else if !control && !cs.contains '\'' then writtenAs cs .literal
  else writtenAs cs .basic

end Classpath.Toml
