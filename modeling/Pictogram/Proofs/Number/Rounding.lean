import Mathlib

/-!
# How doubles are rounded

A double is taken apart into a sign, a mantissa and an exponent, and an operation
rounds its result to a mantissa of 53 bits.  A mantissa that ends in enough zeros
is kept as it is.  Any other one becomes one of its two neighbours.  Putting a
rounded number together and taking it apart again gives it back.
-/

namespace Pictogram
namespace Number

open Float.Model (UnpackedFloat Format totalExponent)
open Float.Model.UnpackedFloat

/-- A shift adds to the number of bits. -/
@[simp] theorem log2_mul_two_pow {number : Nat} (positive : 0 < number) (shift : Nat) :
    (number * 2 ^ shift).log2 = number.log2 + shift := by
  induction shift with
  | zero => simp
  | succ shift hypothesis =>
      have nonzero : number * 2 ^ shift ≠ 0 := (Nat.mul_pos positive (Nat.two_pow_pos _)).ne'
      rw [pow_succ', Nat.mul_left_comm, Nat.log2_two_mul nonzero, hypothesis, Nat.add_assoc]

/-- A double keeps 53 bits of a mantissa, as long as its exponent is not too small. -/
theorem targetExponent_binary64 (mantissa : Nat) (exponent : Int) :
    Format.binary64.targetExponent (totalExponent mantissa exponent) =
      max (mantissa.log2 + exponent - 52) (-1074) := by
  simp only [Format.targetExponent, totalExponent, Format.mantissaBits, Format.minExponent]
  norm_num
  omega

section Shift

/-- A shift to the right divides the mantissa, whatever it remembers of the remainder. -/
theorem mantissa_shiftRight (extended : ExtendedMantissa) (shift : Nat) :
    (extended >>> shift).mantissa = extended.mantissa / 2 ^ shift := by
  induction shift with
  | zero => simp [HShiftRight.hShiftRight, Nat.repeat]
  | succ shift hypothesis =>
      have halved : (extended >>> (shift + 1)).mantissa = (extended >>> shift).mantissa / 2 := rfl
      rw [halved, hypothesis, Nat.div_div_eq_div_mul, pow_succ]

/-- Zeros are shifted out without a trace. -/
theorem shiftRight_mul_two_pow (mantissa shift : Nat) :
    (⟨mantissa * 2 ^ shift, false, false⟩ : ExtendedMantissa) >>> shift =
      ⟨mantissa, false, false⟩ := by
  induction shift generalizing mantissa with
  | zero => simp [HShiftRight.hShiftRight, Nat.repeat]
  | succ shift hypothesis =>
      have once : (⟨mantissa * 2 ^ (shift + 1), false, false⟩ : ExtendedMantissa) >>> (shift + 1) =
          ((⟨mantissa * 2 ^ (shift + 1), false, false⟩ : ExtendedMantissa) >>> shift).shiftRightOne :=
        rfl
      have factor : mantissa * 2 ^ (shift + 1) = mantissa * 2 * 2 ^ shift := by ring
      rw [once, factor, hypothesis]
      simp [ExtendedMantissa.shiftRightOne]

/-- Rounding changes a mantissa by at most one. -/
theorem roundedMantissa_eq (extended : ExtendedMantissa) :
    extended.roundedMantissa = extended.mantissa ∨
      extended.roundedMantissa = extended.mantissa + 1 := by
  obtain ⟨mantissa, roundBit, stickyBit⟩ := extended
  cases roundBit <;> cases stickyBit <;>
    simp [ExtendedMantissa.roundedMantissa, ExtendedMantissa.accuracy,
      Accuracy.roundToNearestEven]
  omega

@[simp] theorem mantissa_ofMantissaAndAccuracy (mantissa : Nat) (accuracy : Accuracy) :
    (ExtendedMantissa.ofMantissaAndAccuracy mantissa accuracy).mantissa = mantissa := by
  unfold ExtendedMantissa.ofMantissaAndAccuracy
  split <;> rfl

/-- A mantissa with too many bits is shifted until it has 53 of them. -/
theorem shiftToTargetExponent_eq
    {mantissa shift : Nat}
    (exponent : Int)
    (accuracy : Accuracy)
    (bits : mantissa.log2 = 52 + shift)
    (normal : -1074 ≤ exponent + shift) :
    shiftToTargetExponent Format.binary64 mantissa exponent accuracy =
      (ExtendedMantissa.ofMantissaAndAccuracy mantissa accuracy >>> shift, exponent + shift) := by
  have amount : (Format.binary64.targetExponent (totalExponent mantissa exponent) - exponent).toNat =
      shift := by
    rw [targetExponent_binary64]
    omega
  rw [shiftToTargetExponent, shiftToExponent, amount]

end Shift

section Round

variable {mantissa shift : Nat} {exponent : Int}

/-- A mantissa that has 53 bits stays. -/
theorem shiftToTargetExponent_self
    (bits : mantissa.log2 = 52)
    (normal : -1074 ≤ exponent) :
    shiftToTargetExponent Format.binary64 mantissa exponent .exact =
      (⟨mantissa, false, false⟩, exponent) := by
  have unshifted : mantissa.log2 = 52 + 0 := bits
  rw [shiftToTargetExponent_eq exponent .exact unshifted (by simpa using normal)]
  simp [ExtendedMantissa.ofMantissaAndAccuracy, HShiftRight.hShiftRight, Nat.repeat]

/-- Of a mantissa that ends in zeros no bit is lost. -/
theorem roundWithAccuracy_exact
    (sign : Sign)
    (positive : 0 < mantissa)
    (bits : mantissa.log2 = 52)
    (normal : -1074 ≤ exponent) :
    roundWithAccuracy Format.binary64 sign (mantissa * 2 ^ shift) (exponent - shift) .exact =
      .finite sign mantissa exponent positive := by
  have allBits : (mantissa * 2 ^ shift).log2 = 52 + shift := by
    rw [log2_mul_two_pow positive, bits]
  have first := shiftToTargetExponent_eq (exponent - shift) .exact allBits (by omega)
  rw [ExtendedMantissa.ofMantissaAndAccuracy, shiftRight_mul_two_pow, Int.sub_add_cancel] at first
  have rounded : (⟨mantissa, false, false⟩ : ExtendedMantissa).roundedMantissa = mantissa := rfl
  rw [roundWithAccuracy, first]
  simp only [rounded, shiftToTargetExponent_self bits normal]
  rw [dif_neg positive.ne']

/-- A mantissa without its lowest bits has 53 of them, if it had that many more. -/
theorem log2_div_two_pow (bits : mantissa.log2 = 52 + shift) :
    (mantissa / 2 ^ shift).log2 = 52 := by
  have positive : 0 < 2 ^ shift := Nat.two_pow_pos shift
  have nonzero : mantissa ≠ 0 := by
    rintro rfl
    rw [Nat.log2_zero] at bits
    omega
  obtain ⟨atLeast, below⟩ := (Nat.log2_eq_iff nonzero).mp bits
  have quotientAtLeast : 2 ^ 52 ≤ mantissa / 2 ^ shift := by
    rw [Nat.le_div_iff_mul_le positive, ← pow_add]
    exact atLeast
  have quotientBelow : mantissa / 2 ^ shift < 2 ^ 53 := by
    rw [Nat.div_lt_iff_lt_mul positive, ← pow_add]
    exact below.trans_eq (by ring)
  exact (Nat.log2_eq_iff (by omega)).mpr ⟨quotientAtLeast, quotientBelow⟩

/-- A rounded number is its mantissa cut off, or one more, with the carry moved to
the exponent. -/
theorem roundWithAccuracy_near
    (exponent : Int)
    (sign : Sign)
    (accuracy : Accuracy)
    (bits : mantissa.log2 = 52 + shift)
    (normal : -1074 ≤ exponent + shift) :
    ∃ (last carry : Nat) (positive : 0 < last),
      roundWithAccuracy Format.binary64 sign mantissa exponent accuracy =
        .finite sign last (exponent + shift + carry) positive ∧
      last.log2 = 52 ∧ carry ≤ 1 ∧
      (last * 2 ^ carry = mantissa / 2 ^ shift ∨
        last * 2 ^ carry = mantissa / 2 ^ shift + 1) := by
  have first := shiftToTargetExponent_eq exponent accuracy bits normal
  generalize extendedIs :
    ExtendedMantissa.ofMantissaAndAccuracy mantissa accuracy >>> shift = extended at first
  have kept : extended.mantissa = mantissa / 2 ^ shift := by
    rw [← extendedIs, mantissa_shiftRight, mantissa_ofMantissaAndAccuracy]
  have keptBits := log2_div_two_pow bits
  rw [← kept] at keptBits ⊢
  have near := roundedMantissa_eq extended
  have keptNonzero : extended.mantissa ≠ 0 := by
    intro zero
    simp [zero] at keptBits
  obtain ⟨atLeast, below⟩ := (Nat.log2_eq_iff keptNonzero).mp keptBits
  have positive : 0 < extended.roundedMantissa := by omega
  rw [roundWithAccuracy, first]
  -- Only a mantissa of ones alone gets one bit more.
  rcases Nat.lt_or_ge extended.roundedMantissa (2 ^ 53) with small | large
  · have roundedBits : extended.roundedMantissa.log2 = 52 :=
      (Nat.log2_eq_iff positive.ne').mpr ⟨by omega, small⟩
    refine ⟨extended.roundedMantissa, 0, positive, ?_, roundedBits, by omega, by simpa using near⟩
    simp only [shiftToTargetExponent_self roundedBits normal]
    rw [dif_neg positive.ne']
    simp
  · have roundedIs : extended.roundedMantissa = 2 ^ 52 * 2 ^ 1 := by omega
    have roundedBits : extended.roundedMantissa.log2 = 52 + 1 := by
      rw [roundedIs, log2_mul_two_pow (by decide), Nat.log2_two_pow]
    refine ⟨2 ^ 52, 1, by decide, ?_, Nat.log2_two_pow, le_refl 1, by rwa [← roundedIs]⟩
    have second := shiftToTargetExponent_eq (exponent + shift) .exact roundedBits (by omega)
    rw [ExtendedMantissa.ofMantissaAndAccuracy, roundedIs, shiftRight_mul_two_pow] at second
    simp only [roundedIs, second]
    rw [dif_neg (by decide)]

end Round

section Pack

@[simp] theorem unpackSign_packComponents
    {spec : Format}
    {sign : Sign}
    {exponent : BitVec spec.exponentBits}
    {mantissa : BitVec spec.mantissaBitsWithoutImplicit} :
    unpackSign (packComponents spec sign exponent mantissa) = sign.toBitVec := by
  ext index bound
  obtain rfl : index = 0 := by omega
  simp [unpackSign, packComponents, BitVec.getElem_append, BitVec.getLsbD_append]

@[simp] theorem ofBitVec_toBitVec (sign : Sign) : Sign.ofBitVec sign.toBitVec = sign := by
  cases sign <;> rfl

theorem unpack_pack (number : UnpackedFloat) :
    (Float.Model.pack number).unpack = unpack Format.binary64 (pack Format.binary64 number) := rfl

@[simp] theorem unpack_pack_zero (sign : Sign) :
    (Float.Model.pack (.zero sign)).unpack = .zero sign := by
  cases sign <;> rfl

@[simp] theorem unpack_pack_infinity (sign : Sign) :
    (Float.Model.pack (.infinity sign)).unpack = .infinity sign := by
  cases sign <;> rfl

@[simp] theorem unpack_pack_notANumber :
    (Float.Model.pack .notANumber).unpack = .notANumber := rfl

/-- The bit before a mantissa of 52 bits stands for their power of two. -/
theorem toNat_implicit (mantissa : BitVec 52) :
    (1#1 ++ mantissa).toNat = 2 ^ 52 + mantissa.toNat := by
  rw [BitVec.toNat_append, ← Nat.shiftLeft_add_eq_or_of_lt mantissa.isLt]
  rfl

/-- A number with a mantissa of 53 bits is kept. -/
theorem unpack_pack_finite
    (sign : Sign)
    {mantissa : Nat}
    {exponent : Int}
    (positive : 0 < mantissa)
    (bits : mantissa.log2 = 52)
    (least : -1074 ≤ exponent)
    (greatest : exponent ≤ 971) :
    (Float.Model.pack (.finite sign mantissa exponent positive)).unpack =
      .finite sign mantissa exponent positive := by
  obtain ⟨atLeast, below⟩ := (Nat.log2_eq_iff positive.ne').mp bits
  obtain ⟨biased, biasedIs⟩ : ∃ biased : Nat, (biased : Int) = exponent + 1023 + 52 :=
    ⟨(exponent + 1023 + 52).toNat, by omega⟩
  have packs : pack Format.binary64 (.finite sign mantissa exponent positive) =
      packComponents Format.binary64 sign (BitVec.ofNat 11 biased) (BitVec.ofNat 52 mantissa) := by
    have bias : (exponent + Format.binary64.exponentBias + (52 : Nat)).toNat = biased := by
      have value : Format.binary64.exponentBias = 1023 := rfl
      omega
    simp only [pack, bits]
    rw [bias, if_neg (by omega), if_pos (by rfl)]
  have exponentValue : (BitVec.ofNat 11 biased).toNat = biased := by
    rw [BitVec.toNat_ofNat, Nat.mod_eq_of_lt (by omega)]
  have notOnes : BitVec.ofNat 11 biased ≠ -1#11 := by
    intro ones
    have value := congrArg BitVec.toNat ones
    rw [exponentValue] at value
    simp at value
    omega
  have notZeros : BitVec.ofNat 11 biased ≠ 0#11 := by
    intro zeros
    have value := congrArg BitVec.toNat zeros
    rw [exponentValue] at value
    simp at value
    omega
  have mantissaValue : (1#1 ++ BitVec.ofNat 52 mantissa).toNat = mantissa := by
    rw [toNat_implicit, BitVec.toNat_ofNat]
    omega
  rw [unpack_pack, packs, unpack]
  simp only [unpackExponent_packComponents, unpackMantissa_packComponents,
    unpackSign_packComponents, ofBitVec_toBitVec]
  rw [if_neg notOnes, if_neg notZeros]
  simp only [mantissaValue, exponentValue, UnpackedFloat.finite.injEq, true_and]
  simp only [Format.exponentBias]
  omega

/-- The mantissa of a double has 53 bits, or fewer at the least exponent. -/
theorem unpack_eq_finite
    {number : Float.Model}
    {sign : Sign}
    {mantissa : Nat}
    {exponent : Int}
    {positive : 0 < mantissa}
    (taken : number.unpack = .finite sign mantissa exponent positive) :
    mantissa.log2 = 52 ∨ mantissa < 2 ^ 52 ∧ exponent = -1074 := by
  rw [Float.Model.unpack, unpack] at taken
  dsimp only at taken
  split at taken
  · split at taken <;> cases taken
  · split at taken
    · split at taken
      · cases taken
      · rename_i exponentZero _
        obtain ⟨rfl, rfl, rfl⟩ := UnpackedFloat.finite.inj taken
        refine .inr ⟨BitVec.isLt _, ?_⟩
        rw [exponentZero]
        rfl
    · obtain ⟨rfl, rfl, rfl⟩ := UnpackedFloat.finite.inj taken
      have bound : (@unpackMantissa Format.binary64 number.toBits.toBitVec).toNat < 2 ^ 52 :=
        BitVec.isLt _
      left
      rw [toNat_implicit, Nat.log2_eq_iff (by omega)]
      omega

end Pack

end Number
end Pictogram
