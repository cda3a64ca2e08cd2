/-!
# Integers as bytes

Integers are written with the most significant byte first.  A negative integer
is written as its remainder modulo the power of two that the width gives.
-/

namespace Pictogram
namespace Bytes

/-- The last `width` bytes of a natural number. -/
def unsigned : (width value : Nat) → List UInt8
  | 0, _ => []
  | width + 1, value => unsigned width (value / 256) ++ [UInt8.ofNat value]

/-- The last `width` bytes of an integer. -/
def signed (width : Nat) (value : Int) : List UInt8 :=
  unsigned width (value % Nat.pow 256 width).toNat

/-- Two bytes of a word. -/
def word (value : UInt16) : List UInt8 := unsigned 2 value.toNat

/-- The natural number that bytes stand for. -/
def toNat (bytes : List UInt8) : Nat :=
  bytes.foldl (fun value byte => 256 * value + byte.toNat) 0

/-- The integer that bytes stand for. -/
def toInt (bytes : List UInt8) : Int :=
  Int.bmod (toNat bytes) (Nat.pow 256 bytes.length)

@[simp] theorem length_unsigned (width value : Nat) : (unsigned width value).length = width := by
  induction width generalizing value with
  | zero => rfl
  | succ width inductionHypothesis => simp [unsigned, inductionHypothesis]

@[simp] theorem length_signed (width : Nat) (value : Int) : (signed width value).length = width :=
  length_unsigned width _

end Bytes
end Pictogram
