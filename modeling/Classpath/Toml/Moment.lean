import Classpath.Document
import Classpath.Toml.Number

namespace Classpath.Toml

/-! # TOML dates and times

A date, a time of day, or both with an optional offset. Nothing here calculates with them: a moment
is checked and brought to one spelling, and stands in a document as a table with a single entry
whose name no other table uses. -/

/-- The number that two digits spell, if it lies between two bounds. -/
def twoDigits (a b : Char) (low high : Nat) : Option Nat :=
  if isDigitOf 10 a ∧ isDigitOf 10 b then
    let n := numeral 10 [a, b]
    if low ≤ n ∧ n ≤ high then some n else none
  else none

def isLeapYear (year : Nat) : Bool :=
  year % 4 = 0 && (year % 100 ≠ 0 || year % 400 = 0)

def daysInMonth (year month : Nat) : Nat :=
  if month = 2 then (if isLeapYear year then 29 else 28)
  else if month = 4 ∨ month = 6 ∨ month = 9 ∨ month = 11 then 30
  else 31

/-- Part of a moment in its one spelling, and what comes after it. -/
abbrev Part := Option (List Char × List Char)

/-! ## Parts -/

def readDate : List Char → Part
  | y₁ :: y₂ :: y₃ :: y₄ :: '-' :: m₁ :: m₂ :: '-' :: d₁ :: d₂ :: cs =>
    let year := [y₁, y₂, y₃, y₄]
    if year.all (isDigitOf 10) then
      (twoDigits m₁ m₂ 1 12).bind fun month =>
        (twoDigits d₁ d₂ 1 (daysInMonth (numeral 10 year) month)).map fun _ =>
          (year ++ ['-', m₁, m₂, '-', d₁, d₂], cs)
    else none
  | _ => none

/-- The digits of a fraction of a second, to nine places and without zeros at the end. -/
def fractionText (digits : List Char) : List Char :=
  match ((digits.take 9).reverse.dropWhile (· = '0')).reverse with
  | [] => []
  | ds => '.' :: ds

/-- The seconds after hours and minutes; they may be left out. -/
def readSeconds : List Char → Part
  | ':' :: s₁ :: s₂ :: '.' :: cs =>
    let digits := cs.takeWhile (isDigitOf 10)
    if digits = [] then none
    else (twoDigits s₁ s₂ 0 60).map fun _ =>
      ([':', s₁, s₂] ++ fractionText digits, cs.dropWhile (isDigitOf 10))
  | ':' :: s₁ :: s₂ :: cs => (twoDigits s₁ s₂ 0 60).map fun _ => ([':', s₁, s₂], cs)
  | ':' :: _ => none
  | cs => some ([':', '0', '0'], cs)

def readTime : List Char → Part
  | h₁ :: h₂ :: ':' :: m₁ :: m₂ :: cs =>
    (twoDigits h₁ h₂ 0 23).bind fun _ =>
      (twoDigits m₁ m₂ 0 59).bind fun _ =>
        (readSeconds cs).map fun (seconds, rest) => ([h₁, h₂, ':', m₁, m₂] ++ seconds, rest)
  | _ => none

/-- The whole of an offset; a zero offset is written with a plus sign. -/
def readOffset : List Char → Option (List Char)
  | [] => some []
  | ['Z'] => some ['Z']
  | ['z'] => some ['Z']
  | [sign, h₁, h₂, ':', m₁, m₂] =>
    if sign = '+' ∨ sign = '-' then
      (twoDigits h₁ h₂ 0 23).bind fun hours =>
        (twoDigits m₁ m₂ 0 59).map fun minutes =>
          [if hours = 0 ∧ minutes = 0 then '+' else sign, h₁, h₂, ':', m₁, m₂]
    else none
  | _ => none

/-! ## Whole moments -/

/-- The rest of a moment after its date. -/
def readAfterDate (date : List Char) : List Char → Option (List Char)
  | [] => some date
  | mark :: cs =>
    if mark = 'T' ∨ mark = 't' ∨ mark = ' ' then
      (readTime cs).bind fun (time, rest) =>
        (readOffset rest).map fun offset => date ++ 'T' :: time ++ offset
    else none

/-- A moment in its one spelling. -/
def readMoment (cs : List Char) : Option (List Char) :=
  match readDate cs with
  | some (date, rest) => readAfterDate date rest
  | none =>
    match readTime cs with
    | some (time, []) => some time
    | _ => none

/-- The name of the only entry of a moment. -/
def momentField : String := "$__toml_private_datetime"

/-- A moment as a document. -/
def momentDocument (text : List Char) : Document :=
  .table [(momentField, .text (String.ofList text))]

end Classpath.Toml
