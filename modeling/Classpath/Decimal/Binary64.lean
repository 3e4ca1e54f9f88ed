namespace Classpath.Decimal

/-! # Numbers of 64-bit precision

A finite number is `mantissa * 2 ^ exponent` with a mantissa below `2 ^ 53` and an exponent between
-1074 and 971. A decimal text stands for the nearest such number, and half way between two for the
one with the even mantissa. All steps are exact, on natural numbers. -/

inductive Binary64 where
  | nan
  | infinite (negative : Bool)
  | finite (negative : Bool) (mantissa : Nat) (exponent : Int)
deriving Repr, DecidableEq

/-! ## Rounding -/

/-- The nearest natural number to a ratio; a half goes to the even neighbour. -/
def roundedRatio (num den : Nat) : Nat :=
  let below := num / den
  let twice := 2 * (num % den)
  if twice < den then below
  else if twice = den then below + below % 2
  else below + 1

/-- A ratio divided by a power of two. -/
def overPowerOfTwo (num den : Nat) (exponent : Int) : Nat × Nat :=
  if 0 ≤ exponent then (num, den * Nat.pow 2 exponent.toNat)
  else (num * Nat.pow 2 (-exponent).toNat, den)

/-- The exponent that leaves a mantissa of 53 bits, or the least one. -/
def exponentFor (num den : Nat) : Int :=
  let guess : Int := (num.log2 : Int) - (den.log2 : Int) - 53
  let scaled := overPowerOfTwo num den guess
  max (-1074) (if scaled.2 * Nat.pow 2 53 ≤ scaled.1 then guess + 1 else guess)

/-- The mantissa and exponent nearest to a positive ratio; none if the ratio is too large. -/
def nearest (num den : Nat) : Option (Nat × Int) :=
  let exponent := exponentFor num den
  let scaled := overPowerOfTwo num den exponent
  let mantissa := roundedRatio scaled.1 scaled.2
  let (mantissa, exponent) :=
    if mantissa = Nat.pow 2 53 then (Nat.pow 2 52, exponent + 1) else (mantissa, exponent)
  if 971 < exponent then none else some (mantissa, exponent)

namespace Binary64

def zero (negative : Bool) : Binary64 :=
  .finite negative 0 (-1074)

/-- The number nearest to `digits * 10 ^ exponent`. Ratios beyond 400 decimal places on either side
are out of range whatever their digits are. -/
def ofDecimal (negative : Bool) (digits : Nat) (exponent : Int) : Binary64 :=
  let magnitude : Int := (Nat.toDigits 10 digits).length + exponent
  if digits = 0 ∨ magnitude < -400 then zero negative
  else if 400 < magnitude then .infinite negative
  else
    let ratio := if 0 ≤ exponent then nearest (digits * Nat.pow 10 exponent.toNat) 1
      else nearest digits (Nat.pow 10 (-exponent).toNat)
    match ratio with
    | none => .infinite negative
    | some (mantissa, exponent) => .finite negative mantissa exponent

def isFinite : Binary64 → Bool
  | .finite _ _ _ => true
  | _ => false

end Binary64

end Classpath.Decimal
