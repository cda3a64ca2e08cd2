/-!
# The shortest decimal of a double

Of all decimals that read back as a given double, the shortest is a multiple
of the greatest possible power of ten; of two such multiples the nearer one is
taken, and of two equally near ones the greater.

A double `mantissa * 2 ^ exponent` is read back from every real between the
midpoints to its neighbours, the midpoints themselves included when the
mantissa is even.  All of this is decided in natural numbers.
-/

namespace Pictogram
namespace Number

/-- A positive decimal `coefficient * 10 ^ exponent`. -/
structure Decimal where
  /-- The digits, as one number. -/
  coefficient : Nat
  /-- The power of ten of the last digit. -/
  exponent : Int
  deriving DecidableEq, Repr

/--
The reals that read back as one double, as quotients by a common denominator:
the double itself and the two ends, with the ends included or not.
-/
structure Reach where
  /-- Numerator of the lower end. -/
  low : Nat
  /-- Numerator of the double. -/
  value : Nat
  /-- Numerator of the upper end. -/
  high : Nat
  /-- The common denominator. -/
  unit : Nat
  /-- Whether the ends belong to it. -/
  closed : Bool

namespace Reach

/--
The reach of `mantissa * 2 ^ exponent`, in quarters of the last place.  Below a
power of two the doubles stand twice as close, unless they are subnormal.
-/
def ofDouble (mantissa : Nat) (exponent : Int) : Reach :=
  let narrow := mantissa = Nat.pow 2 52 ∧ exponent ≠ -1074
  let up := Nat.pow 2 (exponent - 2).toNat
  { low := (4 * mantissa - if narrow then 1 else 2) * up
    value := 4 * mantissa * up
    high := (4 * mantissa + 2) * up
    unit := Nat.pow 2 (2 - exponent).toNat
    closed := mantissa % 2 = 0 }

/-- The reach with every quotient multiplied by the same power of ten. -/
def scale (reach : Reach) (places : Int) : Reach :=
  let up := Nat.pow 10 places.toNat
  { low := reach.low * up
    value := reach.value * up
    high := reach.high * up
    unit := reach.unit * Nat.pow 10 (-places).toNat
    closed := reach.closed }

/-- Whether the natural number is in the reach. -/
def holds (reach : Reach) (number : Nat) : Bool :=
  let scaled := number * reach.unit
  if reach.closed then reach.low ≤ scaled && scaled ≤ reach.high
  else reach.low < scaled && scaled < reach.high

/-- The natural number in the reach that is nearest to the value, if there is
one; of two equally near ones the greater. -/
def nearest? (reach : Reach) : Option Nat :=
  let below := reach.value / reach.unit
  let preferAbove := (2 * below + 1) * reach.unit ≤ 2 * reach.value
  match reach.holds below, reach.holds (below + 1) with
  | true, true => some (if preferAbove then below + 1 else below)
  | true, false => some below
  | false, true => some (below + 1)
  | false, false => none

end Reach

/-- The first power of ten from `exponent` downwards that has a multiple in the
reach, with that multiple.  The first argument bounds the powers tried. -/
def shortestFrom (reach : Reach) : Nat → Int → Decimal
  | 0, exponent => ⟨0, exponent⟩
  | tries + 1, exponent =>
    match (reach.scale (-exponent)).nearest? with
    | some coefficient => ⟨coefficient, exponent⟩
    | none => shortestFrom reach tries (exponent - 1)

/-- A power of ten that is not below any in the reach of the double. -/
def greatestPower (mantissa : Nat) (exponent : Int) : Int :=
  let bits := mantissa.log2 + 2 + exponent
  bits * 30103 / 100000 + 1

/-- The shortest decimal that reads back as `mantissa * 2 ^ exponent`. -/
def shortest (mantissa : Nat) (exponent : Int) : Decimal :=
  shortestFrom (.ofDouble mantissa exponent) 24 (greatestPower mantissa exponent)

namespace Decimal

/-- The digits. -/
def digits (decimal : Decimal) : List Char :=
  Nat.toDigits 10 decimal.coefficient

/-- The power of ten of the first digit. -/
def order (decimal : Decimal) : Int :=
  decimal.exponent + decimal.digits.length - 1

end Decimal

end Number
end Pictogram
