import Pictogram.Proofs.Number.Whole

/-!
# Quotients that are whole numbers

A quotient is rounded to 53 bits.  Where dividend and divisor have fewer bits, a
quotient that is no whole number is farther from every whole number than rounding
takes it, so a double that is whole has not been rounded.
-/

namespace Pictogram
namespace Number

open Float.Model (UnpackedFloat Format totalExponent)
open Float.Model.UnpackedFloat

section Quotient

variable {magnitude magnitude' : Nat}

/-- Mantissas of 53 bits are divided with 53 bits more. -/
theorem divCore_normal
    {mantissa mantissa' : Nat}
    (exponent exponent' : Int)
    (bits : mantissa.log2 = 52)
    (bits' : mantissa'.log2 = 52)
    (least : -1021 ≤ exponent - exponent') :
    divCore Format.binary64 mantissa exponent mantissa' exponent' =
      (mantissa * 2 ^ 53 / mantissa', exponent - exponent' - 53,
        accuracyOfFraction (mantissa * 2 ^ 53 % mantissa') mantissa') := by
  have target : Format.binary64.targetExponent
      (totalExponent mantissa exponent - totalExponent mantissa' exponent') =
        exponent - exponent' - 53 := by
    simp only [Format.targetExponent, totalExponent, Format.mantissaBits, Format.minExponent, bits,
      bits']
    omega
  have lower : min (exponent - exponent') (exponent - exponent' - 53) =
      exponent - exponent' - 53 := by omega
  have amount : (exponent - exponent' - (exponent - exponent' - 53)).toNat = 53 := by omega
  simp only [divCore, target, lower, amount, Nat.shiftLeft_eq]

/-- The quotient of mantissas of 53 bits has 53 or 54 bits. -/
theorem log2_quotient
    {mantissa mantissa' : Nat}
    (positive : 0 < mantissa)
    (positive' : 0 < mantissa')
    (bits : mantissa.log2 = 52)
    (bits' : mantissa'.log2 = 52) :
    ∃ shift, (mantissa * 2 ^ 53 / mantissa').log2 = 52 + shift ∧ shift ≤ 1 := by
  obtain ⟨atLeast, below⟩ := (Nat.log2_eq_iff positive.ne').mp bits
  obtain ⟨atLeast', below'⟩ := (Nat.log2_eq_iff positive'.ne').mp bits'
  have low : 2 ^ 52 ≤ mantissa * 2 ^ 53 / mantissa' := by
    rw [Nat.le_div_iff_mul_le positive']
    omega
  have high : mantissa * 2 ^ 53 / mantissa' < 2 ^ 54 := by
    rw [Nat.div_lt_iff_lt_mul positive']
    omega
  have nonzero : mantissa * 2 ^ 53 / mantissa' ≠ 0 := by omega
  have lowBits := (Nat.le_log2 nonzero).mpr low
  have highBits := (Nat.log2_lt nonzero).mpr high
  exact ⟨(mantissa * 2 ^ 53 / mantissa').log2 - 52, by omega, by omega⟩

/-- The quotient of two whole numbers, rounded: its mantissa is the quotient of the
mantissas, or one more. -/
theorem div_whole
    (sign sign' : Sign)
    (positive : 0 < magnitude)
    (positive' : 0 < magnitude')
    (bound : magnitude < 2 ^ 53)
    (bound' : magnitude' < 2 ^ 53) :
    ∃ (last shift carry : Nat) (lastPositive : 0 < last),
      div Format.binary64 (whole sign magnitude) (whole sign' magnitude') =
        .finite (sign / sign') last (magnitude.log2 - magnitude'.log2 - 53 + shift + carry)
          lastPositive ∧
      last.log2 = 52 ∧ shift ≤ 1 ∧ carry ≤ 1 ∧
      (last * 2 ^ carry =
          magnitude * 2 ^ (105 - magnitude.log2) / (magnitude' * 2 ^ (52 - magnitude'.log2 + shift)) ∨
        last * 2 ^ carry =
          magnitude * 2 ^ (105 - magnitude.log2) / (magnitude' * 2 ^ (52 - magnitude'.log2 + shift)) +
            1) := by
  have bits := log2_le_of_lt bound
  have bits' := log2_le_of_lt bound'
  have mantissaBits : (magnitude * 2 ^ (52 - magnitude.log2)).log2 = 52 := by
    rw [log2_mul_two_pow positive]
    omega
  have mantissaBits' : (magnitude' * 2 ^ (52 - magnitude'.log2)).log2 = 52 := by
    rw [log2_mul_two_pow positive']
    omega
  have mantissaPositive := Nat.mul_pos positive (Nat.two_pow_pos (52 - magnitude.log2))
  have mantissaPositive' := Nat.mul_pos positive' (Nat.two_pow_pos (52 - magnitude'.log2))
  obtain ⟨shift, quotientBits, shiftLe⟩ :=
    log2_quotient mantissaPositive mantissaPositive' mantissaBits mantissaBits'
  have exponent : (magnitude.log2 : Int) - 52 - (magnitude'.log2 - 52) - 53 =
      magnitude.log2 - magnitude'.log2 - 53 := by omega
  have core := divCore_normal (magnitude.log2 - 52) (magnitude'.log2 - 52) mantissaBits
    mantissaBits' (by omega)
  rw [exponent] at core
  obtain ⟨last, carry, lastPositive, rounds, lastBits, carryLe, near⟩ :=
    roundWithAccuracy_near (magnitude.log2 - magnitude'.log2 - 53) (sign / sign')
      (accuracyOfFraction (magnitude * 2 ^ (52 - magnitude.log2) * 2 ^ 53 %
        (magnitude' * 2 ^ (52 - magnitude'.log2))) (magnitude' * 2 ^ (52 - magnitude'.log2)))
      quotientBits (by omega)
  refine ⟨last, shift, carry, lastPositive, ?_, lastBits, shiftLe, carryLe, ?_⟩
  · rw [whole_of_pos sign positive, whole_of_pos sign' positive']
    simp only [div, core, rounds]
  · have dividend : magnitude * 2 ^ (52 - magnitude.log2) * 2 ^ 53 =
        magnitude * 2 ^ (105 - magnitude.log2) := by
      rw [Nat.mul_assoc, ← pow_add]
      congr 2
      omega
    rwa [Nat.div_div_eq_div_mul, dividend, Nat.mul_assoc, ← pow_add] at near

/-- If the rounded quotient is whole, nothing was rounded. -/
theorem exact_of_whole
    {quotient shift carry : Nat}
    (positive : 0 < magnitude)
    (positive' : 0 < magnitude')
    (bound : magnitude < 2 ^ 52)
    (bound' : magnitude' < 2 ^ 53)
    (quotientBound : quotient < 2 ^ 53)
    (shiftLe : shift ≤ 1)
    (exponent : (quotient.log2 : Int) - 52 =
      magnitude.log2 - magnitude'.log2 - 53 + shift + carry)
    (near : quotient * 2 ^ (52 - quotient.log2) * 2 ^ carry =
        magnitude * 2 ^ (105 - magnitude.log2) / (magnitude' * 2 ^ (52 - magnitude'.log2 + shift)) ∨
      quotient * 2 ^ (52 - quotient.log2) * 2 ^ carry =
        magnitude * 2 ^ (105 - magnitude.log2) / (magnitude' * 2 ^ (52 - magnitude'.log2 + shift)) +
          1) :
    quotient * magnitude' = magnitude := by
  have bits := (Nat.log2_lt positive.ne').mpr bound
  have bits' := log2_le_of_lt bound'
  have quotientBits := log2_le_of_lt quotientBound
  generalize unitIs : 2 ^ (105 - magnitude.log2) = unit at near
  generalize divisorIs : magnitude' * 2 ^ (52 - magnitude'.log2 + shift) = divisor at near
  have unitPositive : 0 < unit := unitIs ▸ Nat.two_pow_pos _
  have divisorPositive : 0 < divisor := divisorIs ▸ Nat.mul_pos positive' (Nat.two_pow_pos _)
  -- One unit of the last place is less than one unit of the dividend.
  have divisorLess : divisor < unit := by
    rw [← divisorIs, ← unitIs]
    calc magnitude' * 2 ^ (52 - magnitude'.log2 + shift)
        < 2 ^ (magnitude'.log2 + 1) * 2 ^ (52 - magnitude'.log2 + shift) :=
          Nat.mul_lt_mul_of_pos_right Nat.lt_log2_self (Nat.two_pow_pos _)
      _ = 2 ^ (53 + shift) := by
          rw [← pow_add]
          congr 1
          omega
      _ ≤ 2 ^ (105 - magnitude.log2) := Nat.pow_le_pow_right (by decide) (by omega)
  have product : quotient * 2 ^ (52 - quotient.log2) * 2 ^ carry * divisor =
      quotient * magnitude' * unit := by
    have exponents : 52 - quotient.log2 + carry + (52 - magnitude'.log2 + shift) =
        105 - magnitude.log2 := by omega
    rw [← divisorIs, ← unitIs, ← exponents, pow_add, pow_add]
    ring
  have below := Nat.div_mul_le_self (magnitude * unit) divisor
  have above : magnitude * unit < magnitude * unit / divisor * divisor + divisor :=
    Nat.lt_div_mul_add divisorPositive
  have both : quotient * magnitude' * unit < (magnitude + 1) * unit ∧
      magnitude * unit < (quotient * magnitude' + 1) * unit := by
    rw [← product, Nat.add_mul magnitude, Nat.add_mul (quotient * magnitude'), ← product]
    rcases near with cutOff | oneMore
    · rw [cutOff]
      omega
    · rw [oneMore, Nat.add_mul (magnitude * unit / divisor)]
      omega
  have atMost := Nat.lt_of_mul_lt_mul_right both.1
  have atLeast := Nat.lt_of_mul_lt_mul_right both.2
  omega

/-- The sign of a quotient times that of its divisor is that of the dividend. -/
theorem apply_div_mul_apply (sign sign' : Sign) (value value' : Int) :
    (sign / sign').apply value * sign'.apply value' = sign.apply (value * value') := by
  cases sign <;> cases sign'
  · exact mul_neg value value'
  · exact neg_mul value value'
  · exact neg_mul_neg value value'
  · rfl

/-- A whole quotient of whole numbers is exact. -/
theorem div_means
    {left right : UnpackedFloat}
    {value value' quotient : Int}
    (means : Means left value)
    (means' : Means right value')
    (bound : value.natAbs < 2 ^ 52)
    (found : Means (Float.Model.pack (div Format.binary64 left right)).unpack quotient) :
    value' ≠ 0 ∧ quotient * value' = value := by
  obtain ⟨sign, magnitude, small, rfl, rfl⟩ := means
  obtain ⟨sign', magnitude', small', rfl, rfl⟩ := means'
  rw [natAbs_apply] at bound
  rcases Nat.eq_zero_or_pos magnitude' with rfl | positive'
  · exfalso
    rcases Nat.eq_zero_or_pos magnitude with rfl | positive
    · rw [whole_zero, whole_zero, div, unpack_pack_notANumber] at found
      exact not_means_notANumber quotient found
    · rw [whole_of_pos sign positive, whole_zero, div, unpack_pack_infinity] at found
      exact not_means_infinity _ quotient found
  · have nonzero : sign'.apply magnitude' ≠ 0 := by
      intro zero
      have magnitudeZero := congrArg Int.natAbs zero
      rw [natAbs_apply] at magnitudeZero
      omega
    refine ⟨nonzero, ?_⟩
    rcases Nat.eq_zero_or_pos magnitude with rfl | positive
    · rw [whole_of_pos sign' positive', whole_zero, div, unpack_pack_zero] at found
      obtain rfl : quotient = 0 := means_unique found (means_zero _)
      rw [Int.zero_mul, apply_zero]
    · obtain ⟨last, shift, carry, lastPositive, divides, lastBits, shiftLe, carryLe, near⟩ :=
        div_whole sign sign' positive positive' small small'
      have bits := log2_le_of_lt small
      have bits' := log2_le_of_lt small'
      rw [divides, unpack_pack_finite _ lastPositive lastBits (by omega) (by omega)] at found
      obtain ⟨sign'', magnitude'', small'', rfl, same⟩ := found
      have positive'' : 0 < magnitude'' := by
        rcases Nat.eq_zero_or_pos magnitude'' with rfl | positive''
        · cases same
        · exact positive''
      rw [whole_of_pos sign'' positive''] at same
      obtain ⟨rfl, lastIs, exponents⟩ := UnpackedFloat.finite.inj same
      rw [lastIs] at near
      rw [apply_div_mul_apply, ← Nat.cast_mul,
        exact_of_whole positive positive' bound small' small'' shiftLe exponents.symm near]

end Quotient

end Number
end Pictogram
