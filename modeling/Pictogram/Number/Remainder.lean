/-!
# Remainder of doubles

The remainder of a division that truncates, exact, with the sign of the
dividend.  A double is taken apart into sign, mantissa and exponent; the
remainder of two mantissas at a common exponent is again a double.
-/

namespace Pictogram
namespace Number

open Float.Model (UnpackedFloat Format)

/-- The remainder of two numbers taken apart. -/
def remainderUnpacked : UnpackedFloat → UnpackedFloat → UnpackedFloat
  | .notANumber, _ | _, .notANumber => .notANumber
  | .infinity _, _ | _, .zero _ => .notANumber
  | dividend, .infinity _ => dividend
  | .zero sign, .finite .. => .zero sign
  | .finite sign dividend dividendExponent _, .finite _ divisor divisorExponent _ =>
    let exponent := min dividendExponent divisorExponent
    let scaledDividend := dividend <<< (dividendExponent - exponent).toNat
    let scaledDivisor := divisor <<< (divisorExponent - exponent).toNat
    match scaledDividend % scaledDivisor with
    | 0 => .zero sign
    | rest => UnpackedFloat.round Format.binary64 sign rest exponent

/-- The remainder of dividing one double by another. -/
def remainder (dividend divisor : Float) : Float :=
  .ofModel (.pack (remainderUnpacked dividend.toModel.unpack divisor.toModel.unpack))

end Number
end Pictogram
