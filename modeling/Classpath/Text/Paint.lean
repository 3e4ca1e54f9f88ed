namespace Classpath.Text

/-! # Painted texts

Terminals show a text in a colour or in bold when it stands between two control sequences: the first
turns the look on, and the second ends every look. A text that ends looks itself gets its own look
back after each such place. -/

inductive Look where
  | bold
  | red
  | green
  | yellow
  | cyan
  | boldRed
deriving Repr, DecidableEq

def Look.code : Look → String
  | .bold => "1"
  | .red => "31"
  | .green => "32"
  | .yellow => "33"
  | .cyan => "36"
  | .boldRed => "1;31"

/-- The control sequence with a code. -/
def control (code : String) : List Char :=
  ['\x1b', '['] ++ code.toList ++ ['m']

/-- The text in which a look is turned on again wherever all looks end. -/
def restored (on : List Char) : List Char → List Char
  | '\x1b' :: '[' :: '0' :: 'm' :: cs => ['\x1b', '[', '0', 'm'] ++ on ++ restored on cs
  | c :: cs => c :: restored on cs
  | [] => []

/-- A text with its look, or as it is where looks are not wanted. -/
def paint (wanted : Bool) (look : Look) (s : String) : String :=
  if wanted then
    let on := control look.code
    String.ofList (on ++ restored on s.toList ++ control "0")
  else s

end Classpath.Text
