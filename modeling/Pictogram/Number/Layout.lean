import Pictogram.Number.Shortest

/-!
# Ways to write a number

A `Layout` says how the shortest digits of a double are set out: in which
range of magnitudes without an exponent, how an exponent is marked, and what
stands for the doubles that are no decimals.
-/

namespace Pictogram
namespace Number

open Float.Model (UnpackedFloat)

/-- How numbers are written. -/
structure Layout where
  /-- The text of an infinity without its sign. -/
  infinity : String
  /-- Whether the sign of zero is shown. -/
  signedZero : Bool
  /-- Whether a whole number written without exponent ends in `.0`. -/
  wholeMark : Bool
  /-- The orders of magnitude written without exponent, from the first up to
  and without the second; all of them if there is none. -/
  plainOrders : Option (Int × Int)
  /-- The mark of an exponent that is not negative. -/
  exponentMark : String

namespace Layout

/-- Digits with a point after the first of them and the power of ten. -/
def scientific (layout : Layout) (decimal : Decimal) : String :=
  let exponent :=
    if decimal.order < 0 then s!"e-{decimal.order.natAbs}"
    else s!"{layout.exponentMark}{decimal.order.natAbs}"
  match decimal.digits with
  | [] => exponent
  | [digit] => s!"{digit}{exponent}"
  | digit :: more => s!"{digit}.{String.ofList more}{exponent}"

/-- Digits with the point where the power of ten puts it, and zeros as needed. -/
def plain (layout : Layout) (decimal : Decimal) : String :=
  let digits := decimal.digits
  match decimal.exponent with
  | .ofNat zeros =>
    String.ofList (digits ++ List.replicate zeros '0') ++ if layout.wholeMark then ".0" else ""
  | .negSucc places =>
    let places := places + 1
    if places < digits.length then
      let whole := digits.length - places
      s!"{String.ofList (digits.take whole)}.{String.ofList (digits.drop whole)}"
    else
      "0." ++ String.ofList (List.replicate (places - digits.length) '0' ++ digits)

/-- A positive decimal. -/
def decimal (layout : Layout) (decimal : Decimal) : String :=
  let isPlain := match layout.plainOrders with
    | none => true
    | some (least, bound) => least ≤ decimal.order && decimal.order < bound
  if isPlain then layout.plain decimal else layout.scientific decimal

/-- A double in this layout. -/
def write (layout : Layout) (number : Float) : String :=
  let signed (sign : UnpackedFloat.Sign) (magnitude : String) : String :=
    match sign with
    | .negative => s!"-{magnitude}"
    | .positive => magnitude
  match number.toModel.unpack with
  | .notANumber => "NaN"
  | .infinity sign => signed sign layout.infinity
  | .zero sign =>
    let zero := if layout.wholeMark then "0.0" else "0"
    if layout.signedZero then signed sign zero else zero
  | .finite sign mantissa exponent _ => signed sign (layout.decimal (shortest mantissa exponent))

end Layout

/-- Numbers as a running program prints them: zero without sign, and an
exponent from 1e21 up and below 1e-6. -/
def printed : Layout where
  infinity := "Infinity"
  signedZero := false
  wholeMark := false
  plainOrders := some (-6, 21)
  exponentMark := "e+"

/-- Numbers as messages quote them: never with an exponent. -/
def quoted : Layout where
  infinity := "inf"
  signedZero := true
  wholeMark := false
  plainOrders := none
  exponentMark := "e"

/-- Numbers as a syntax tree shows them: whole numbers keep a `.0`, and an
exponent from 1e16 up and below 1e-4. -/
def outlined : Layout where
  infinity := "inf"
  signedZero := true
  wholeMark := true
  plainOrders := some (-4, 16)
  exponentMark := "e"

end Number
end Pictogram
