/-!
# Doubles that are 32-bit integers
-/

namespace Pictogram
namespace Number

open Float.Model (UnpackedFloat)

/-- The magnitude `mantissa * 2 ^ exponent` if it is whole and has at most 32 bits. -/
def wholeMagnitude? (mantissa : Nat) (exponent : Int) : Option Nat :=
  match exponent with
  | .ofNat shift => if shift ≤ 32 then some (mantissa <<< shift) else none
  | .negSucc shift =>
    let unit := Nat.pow 2 (shift + 1)
    if mantissa % unit = 0 then some (mantissa / unit) else none

/-- The integer, if it fits in 32 bits with a sign. -/
def int32? (value : Int) : Option Int32 :=
  if Int32.minValue.toInt ≤ value && value ≤ Int32.maxValue.toInt then some (Int32.ofInt value)
  else none

/-- The value of a double that is exactly a 32-bit integer. -/
def toInt32? (number : Float) : Option Int32 :=
  match number.toModel.unpack with
  | .zero _ => some 0
  | .finite sign mantissa exponent _ =>
    (wholeMagnitude? mantissa exponent).bind fun magnitude => int32? (sign.apply magnitude)
  | .infinity _ | .notANumber => none

end Number
end Pictogram
