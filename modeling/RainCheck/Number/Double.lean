/-!
# Doubles as exact numbers

Conversions between doubles and other numbers:
* `Double.nearest?` rounds a fraction to the nearest double, ties to the even one;
* `Double.ofSingle` and `Double.ofInt64` are the doubles for numbers of other types;
* `Double.saturate` rounds a double towards zero and keeps it within given bounds.
-/

namespace RainCheck.Double

/-- The exponent of the smallest positive double. -/
def lowestExponent : Int := -1074

/-- The number of values of the fraction field. -/
def fractionSize : Nat := 0x10000000000000

/-- The exponent field of infinities and of values that are no numbers. -/
def infiniteField : Nat := 0x7FF

/-- The positive infinity. -/
def infinity : Float := .ofBits (.ofNat (infiniteField * fractionSize))

/-- The value that is no number. -/
def notANumber : Float := .ofBits (.ofNat (infiniteField * fractionSize + fractionSize / 2))

/-- The quotient of two numbers, rounded to the nearest one and a half to the even one. -/
def roundQuotient (numerator denominator : Nat) : Nat :=
  let q := numerator / denominator
  let twice := 2 * (numerator % denominator)
  if twice < denominator then q
  else if denominator < twice then q + 1
  else q + q % 2

/-- The quotient `numerator / (denominator * 2 ^ exponent)` as a fraction of natural numbers. -/
def scaled (numerator denominator : Nat) (exponent : Int) : Nat × Nat :=
  if 0 ≤ exponent then (numerator, denominator <<< exponent.toNat)
  else (numerator <<< (-exponent).toNat, denominator)

/-- The exponent of the last place of the double nearest to a positive fraction. -/
def exponentOf (numerator denominator : Nat) : Int :=
  let guess : Int := (Nat.log2 numerator : Int) - (Nat.log2 denominator : Int) - 53
  let (n, d) := scaled numerator denominator guess
  let exponent := if 2 * fractionSize ≤ n / d then guess + 1 else guess
  max exponent lowestExponent

/-- The bits of the double nearest to a fraction, unless it is above the largest one. -/
def nearestBits? (numerator denominator : Nat) : Option UInt64 :=
  if numerator = 0 then some 0
  else
    let exponent := exponentOf numerator denominator
    let (n, d) := scaled numerator denominator exponent
    let bits := (exponent - lowestExponent).toNat * fractionSize + roundQuotient n d
    if bits < infiniteField * fractionSize then some (UInt64.ofNat bits) else none

/-- The double nearest to a fraction, unless it is above the largest one. -/
def nearest? (numerator denominator : Nat) : Option Float :=
  (nearestBits? numerator denominator).map Float.ofBits

/-- The double that has the value of a single precision number, with its significand filled up to 53 bits. -/
def ofSingle (x : Float32) : Float :=
  .ofModel (.pack (match x.toModel.unpack with
    | .finite sign significand exponent positive =>
      let places := 52 - significand.log2
      .finite sign (significand <<< places) (exponent - places)
        (Nat.shiftLeft_eq significand places ▸ Nat.mul_pos positive (Nat.two_pow_pos places))
    | special => special))

/-- The double nearest to a 64-bit integer, ties to the even one. -/
def ofInt64 (n : Int64) : Float := .ofModel (.ofInt64 n)

/-- The integer that is left of a finite double without its fraction. -/
def whole (x : Float) : Int :=
  match x.toModel.unpack with
  | .finite sign significand exponent _ =>
    sign.apply (if 0 ≤ exponent then significand <<< exponent.toNat else significand >>> (-exponent).toNat : Nat)
  | _ => 0

/--
The 64-bit integer that is left of a double without its fraction.  If no such integer is left the
smallest one stands for it, as it does on common processors.
-/
def toInt64 (x : Float) : Int64 :=
  if x.isFinite ∧ Int64.minValue.toInt ≤ whole x ∧ whole x ≤ Int64.maxValue.toInt then Int64.ofInt (whole x)
  else Int64.minValue

/-- Where a double lies with respect to two bounds. -/
inductive Side where
  /-- It is no number. -/
  | nowhere
  /-- At or below the lower bound. -/
  | below
  /-- At or above the upper bound. -/
  | above
  /-- Strictly between the bounds. -/
  | within
  deriving DecidableEq, Repr

/-- The side of a double with respect to two integers, which are compared with it as doubles. -/
def side (x : Float) (lowest highest : Int64) : Side :=
  if x.isNaN then .nowhere
  else if x ≤ ofInt64 lowest then .below
  else if ofInt64 highest ≤ x then .above
  else .within

/-- The double rounded towards zero, but not below `lowest` or above `highest`; what is no number counts as 0. -/
def saturate (x : Float) (lowest highest : Int64) : Int64 :=
  match side x lowest highest with
  | .nowhere => 0
  | .below => lowest
  | .above => highest
  | .within => toInt64 x

end RainCheck.Double
