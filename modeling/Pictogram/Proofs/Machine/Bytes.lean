import Pictogram.Machine.Bytes
import Mathlib.Tactic.Ring

/-!
# Integers read back from bytes

Reading the bytes of an integer gives the integer modulo the power of two that
their number stands for, so it gives back every integer that fits.
-/

namespace Pictogram
namespace Bytes

theorem toNat_append_singleton (bytes : List UInt8) (byte : UInt8) :
    toNat (bytes ++ [byte]) = 256 * toNat bytes + byte.toNat := by
  simp [toNat]

/-- A number written in some bytes is read back without what does not fit. -/
theorem toNat_unsigned (width value : Nat) :
    toNat (unsigned width value) = value % Nat.pow 256 width := by
  induction width generalizing value with
  | zero => simp [unsigned, toNat, Nat.mod_one]
  | succ width inductionHypothesis =>
      have split : Nat.pow 256 (width + 1) = 256 * Nat.pow 256 width := by
        simp only [Nat.pow_eq, pow_succ]
        ring
      rw [unsigned, toNat_append_singleton, inductionHypothesis, split, Nat.mod_mul]
      simp only [UInt8.toNat_ofNat']
      omega

/-- An integer that fits in some bytes is read back from them. -/
theorem toInt_signed
    (width : Nat)
    (value : Int)
    (least : -(Nat.pow 256 width / 2 : Nat) ≤ value)
    (greatest : value < ((Nat.pow 256 width + 1) / 2 : Nat)) :
    toInt (signed width value) = value := by
  have positive : 0 < Nat.pow 256 width := Nat.pow_pos (by decide)
  have reduced : ((value % Nat.pow 256 width).toNat : Int) = value % Nat.pow 256 width :=
    Int.toNat_of_nonneg (Int.emod_nonneg _ (by omega))
  have small : (value % Nat.pow 256 width).toNat < Nat.pow 256 width := by
    have := Int.emod_lt_of_pos value (b := Nat.pow 256 width) (by omega)
    omega
  rw [toInt, length_signed, signed, toNat_unsigned, Nat.mod_eq_of_lt small, reduced,
    Int.emod_bmod]
  exact Int.bmod_eq_of_le (by omega) (by omega)

/-- Bytes hold no integer that does not fit in them. -/
theorem toInt_bounds (bytes : List UInt8) :
    -((256 ^ bytes.length : Nat) / 2 : Int) ≤ toInt bytes ∧
      toInt bytes < ((256 ^ bytes.length : Nat) + 1) / 2 :=
  have positive : 0 < 256 ^ bytes.length := Nat.pow_pos (by decide)
  ⟨Int.le_bmod positive, Int.bmod_lt positive⟩

/-- A signed byte is read back. -/
theorem toInt_signed_one
    {value : Int}
    (least : -128 ≤ value)
    (greatest : value ≤ 127) :
    toInt (signed 1 value) = value :=
  toInt_signed 1 value (by simpa using least) (by simp; omega)

/-- A signed word is read back. -/
theorem toInt_signed_two
    {value : Int}
    (least : -32768 ≤ value)
    (greatest : value ≤ 32767) :
    toInt (signed 2 value) = value :=
  toInt_signed 2 value (by simpa using least) (by simp; omega)

/-- An index is read back. -/
theorem ofNat_toNat_word (index : UInt16) :
    UInt16.ofNat (toNat (word index)) = index := by
  have small : index.toNat < Nat.pow 256 2 := index.toNat_lt
  rw [word, toNat_unsigned, Nat.mod_eq_of_lt small, UInt16.ofNat_toNat]

end Bytes
end Pictogram
