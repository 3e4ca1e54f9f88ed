import Classpath.Decimal.Binary64

namespace Classpath.Decimal

/-! # The shortest decimal text

The text of a number has the fewest digits that still read back as the number, and of those the
ones nearest to it. A style settles what is left open: which of two equally near decimals is taken,
and which numbers are written with an exponent. A number written out by places always has a
point. -/

/-- Which of two equally near decimals is taken. -/
inductive Tie where
  /-- The one farther from zero. -/
  | away
  /-- The one whose last digit is even. -/
  | even
deriving Repr, DecidableEq

/-- How the texts of numbers look. -/
structure Style where
  tie : Tie
  /-- The bounds between which the point has to stand, counted in digits from the first digit on,
  in a number that is written out by places; without bounds every number is. -/
  pointBounds : Option (Int × Int)
deriving Repr, DecidableEq

/-- `units * 10 ^ place`. -/
structure Grid where
  units : Nat
  place : Int
deriving Repr, DecidableEq

/-- A number with the bounds of the interval that rounds to it, all over one denominator. -/
structure Interval where
  low : Nat
  value : Nat
  high : Nat
  den : Nat
  /-- Whether the bounds themselves round to the number. -/
  closed : Bool
deriving Repr, DecidableEq

/-- The interval of a positive number: half a step to both sides, and a quarter of one towards
smaller numbers where the steps below are half as wide. -/
def intervalOf (mantissa : Nat) (exponent : Int) : Interval :=
  let low :=
    if mantissa = Nat.pow 2 52 ∧ -1074 < exponent then 4 * mantissa - 1 else 4 * mantissa - 2
  let quarter := exponent - 2
  let factor := if 0 ≤ quarter then Nat.pow 2 quarter.toNat else 1
  { low := low * factor
    value := 4 * mantissa * factor
    high := (4 * mantissa + 2) * factor
    den := if 0 ≤ quarter then 1 else Nat.pow 2 (-quarter).toNat
    closed := mantissa % 2 = 0 }

/-- The value of a place as a factor and a divisor. -/
def placeRatio (place : Int) : Nat × Nat :=
  if 0 ≤ place then (Nat.pow 10 place.toNat, 1) else (1, Nat.pow 10 (-place).toNat)

/-- The decimal next to the value on the grid of a place, if one lies in the interval. -/
def onGrid (tie : Tie) (i : Interval) (place : Int) : Option Grid :=
  let (factor, divisor) := placeRatio place
  let step := factor * i.den
  let value := i.value * divisor
  let below := value / step
  let above := below + 1
  let lowIn := if i.closed then i.low * divisor ≤ below * step else i.low * divisor < below * step
  let highIn :=
    if i.closed then above * step ≤ i.high * divisor else above * step < i.high * divisor
  let belowNearer := 2 * (value - below * step) < step ∨
    2 * (value - below * step) = step ∧ tie = .even ∧ below % 2 = 0
  if lowIn ∧ (belowNearer ∨ ¬ highIn) then some ⟨below, place⟩
  else if highIn then some ⟨above, place⟩
  else none

/-- A place above all digits of the value. -/
def topPlace (i : Interval) : Int :=
  if i.den ≤ i.value then (Nat.toDigits 10 (i.value / i.den)).length
  else 2 - ((Nat.toDigits 10 (i.den / i.value)).length : Int)

/-- The first grid with a hit, going down from a place. -/
def firstHit (tie : Tie) (i : Interval) (place : Int) : Nat → Grid
  | 0 => ⟨i.value / i.den, 0⟩
  | count + 1 => (onGrid tie i place).getD (firstHit tie i (place - 1) count)

/-- The fewest digits for a positive number. No double needs more than 17; one more place is for
`topPlace`, which may lie one too high. -/
def shortest (tie : Tie) (mantissa : Nat) (exponent : Int) : Grid :=
  let i := intervalOf mantissa exponent
  firstHit tie i (topPlace i - 1) 18

/-! ## Writing by places -/

/-- The digits with a point `places` digits from the right end. -/
def withPoint (digits : List Char) (places : Nat) : List Char :=
  if places = 0 then digits ++ ['.', '0']
  else
    let padded := List.replicate (places + 1 - digits.length) '0' ++ digits
    padded.take (padded.length - places) ++ '.' :: padded.drop (padded.length - places)

/-- The decimal by places, without zeros at the end of the fraction. -/
def Grid.byPlaces (g : Grid) : List Char :=
  let digits := Nat.toDigits 10 g.units
  if 0 ≤ g.place then withPoint (digits ++ List.replicate g.place.toNat '0') 0
  else
    let zeros := min (digits.reverse.takeWhile (· = '0')).length (-g.place).toNat
    withPoint (digits.take (digits.length - zeros)) ((-g.place).toNat - zeros)

/-! ## Writing with an exponent -/

/-- Where the point stands, counted in digits from the first digit on. -/
def Grid.point (g : Grid) : Int :=
  (Nat.toDigits 10 g.units).length + g.place

/-- The digits without zeros at the end, the point after the first if there are more, and the power
of ten of the first digit with its sign. -/
def Grid.withExponent (g : Grid) : List Char :=
  let digits := ((Nat.toDigits 10 g.units).reverse.dropWhile (· = '0')).reverse
  let more := digits.drop 1
  let fraction := if more = [] then [] else '.' :: more
  let power := g.point - 1
  let sign := if power < 0 then '-' else '+'
  digits.take 1 ++ fraction ++ 'e' :: sign :: Nat.toDigits 10 power.natAbs

/-! ## The text in a style -/

/-- The text of a positive decimal. -/
def Grid.text (style : Style) (g : Grid) : List Char :=
  match style.pointBounds with
  | none => g.byPlaces
  | some (low, high) => if low ≤ g.point ∧ g.point ≤ high then g.byPlaces else g.withExponent

/-- The text of a number. -/
def Binary64.text (style : Style) : Binary64 → String
  | .nan => "NaN"
  | .infinite negative => if negative then "-inf" else "inf"
  | .finite negative mantissa exponent =>
    let digits :=
      if mantissa = 0 then ['0', '.', '0'] else (shortest style.tie mantissa exponent).text style
    String.ofList (if negative then '-' :: digits else digits)

end Classpath.Decimal
