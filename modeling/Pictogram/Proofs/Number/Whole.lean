import Pictogram.Number.Integral
import Pictogram.Number.Remainder
import Pictogram.Proofs.Number.Rounding

/-!
# Doubles that are whole numbers

A whole number of at most 53 bits is one double for each sign.  On whole numbers
sums, differences, products and remainders are exact as long as the result has at
most 53 bits.  A quotient is whole only if the division leaves nothing over.
-/

namespace Pictogram
namespace Number

open Float.Model (UnpackedFloat Format totalExponent)
open Float.Model.UnpackedFloat

/-- A whole number of at most 53 bits, taken apart. -/
def whole (sign : Sign) (magnitude : Nat) : UnpackedFloat :=
  if positive : 0 < magnitude then
    .finite sign (magnitude * 2 ^ (52 - magnitude.log2)) (magnitude.log2 - 52)
      (Nat.mul_pos positive (Nat.two_pow_pos _))
  else .zero sign

/-- A number taken apart is a whole number of at most 53 bits. -/
def Means (number : UnpackedFloat) (value : Int) : Prop :=
  ∃ (sign : Sign) (magnitude : Nat), magnitude < 2 ^ 53 ∧ sign.apply magnitude = value ∧
    number = whole sign magnitude

/-- A double is a whole number of at most 53 bits. -/
def IsWhole (number : Float) (value : Int) : Prop := Means number.toModel.unpack value

@[simp] theorem whole_zero (sign : Sign) : whole sign 0 = .zero sign := rfl

theorem whole_of_pos (sign : Sign) {magnitude : Nat} (positive : 0 < magnitude) :
    whole sign magnitude =
      .finite sign (magnitude * 2 ^ (52 - magnitude.log2)) (magnitude.log2 - 52)
        (Nat.mul_pos positive (Nat.two_pow_pos _)) :=
  dif_pos positive

theorem log2_le_of_lt {magnitude : Nat} (bound : magnitude < 2 ^ 53) : magnitude.log2 ≤ 52 := by
  rcases Nat.eq_zero_or_pos magnitude with rfl | positive
  · simp
  · exact Nat.lt_succ_iff.mp ((Nat.log2_lt positive.ne').mpr bound)

/-- A whole number of at most 53 bits survives being put together and taken apart. -/
theorem unpack_pack_whole (sign : Sign) {magnitude : Nat} (bound : magnitude < 2 ^ 53) :
    (Float.Model.pack (whole sign magnitude)).unpack = whole sign magnitude := by
  rcases Nat.eq_zero_or_pos magnitude with rfl | positive
  · simp
  · have bits := log2_le_of_lt bound
    rw [whole_of_pos sign positive]
    refine unpack_pack_finite sign _ ?_ (by omega) (by omega)
    rw [log2_mul_two_pow positive]
    omega

theorem means_whole (sign : Sign) {magnitude : Nat} (bound : magnitude < 2 ^ 53) :
    Means (whole sign magnitude) (sign.apply magnitude) :=
  ⟨sign, magnitude, bound, rfl, rfl⟩

theorem means_zero (sign : Sign) : Means (.zero sign) 0 :=
  ⟨sign, 0, by decide, by cases sign <;> rfl, rfl⟩

/-- A whole number is put together without loss. -/
theorem Means.isWhole
    {number : UnpackedFloat}
    {value : Int}
    (means : Means number value) :
    IsWhole (.ofModel (.pack number)) value := by
  obtain ⟨sign, magnitude, bound, valueIs, rfl⟩ := means
  exact ⟨sign, magnitude, bound, valueIs, unpack_pack_whole sign bound⟩

/-- No two whole numbers of at most 53 bits are taken apart in one way. -/
theorem whole_inj
    {sign sign' : Sign}
    {magnitude magnitude' : Nat}
    (same : whole sign magnitude = whole sign' magnitude')
    (bound : magnitude < 2 ^ 53)
    (bound' : magnitude' < 2 ^ 53) :
    sign = sign' ∧ magnitude = magnitude' := by
  rcases Nat.eq_zero_or_pos magnitude with rfl | positive <;>
    rcases Nat.eq_zero_or_pos magnitude' with rfl | positive'
  · exact ⟨UnpackedFloat.zero.inj same, rfl⟩
  · rw [whole_of_pos sign' positive'] at same
    cases same
  · rw [whole_of_pos sign positive] at same
    cases same
  · rw [whole_of_pos sign positive, whole_of_pos sign' positive'] at same
    obtain ⟨signs, mantissas, exponents⟩ := UnpackedFloat.finite.inj same
    have bits := log2_le_of_lt bound
    have bits' := log2_le_of_lt bound'
    have logs : magnitude.log2 = magnitude'.log2 := by omega
    rw [logs] at mantissas
    exact ⟨signs, Nat.eq_of_mul_eq_mul_right (Nat.two_pow_pos _) mantissas⟩

/-- A number taken apart is one whole number at most. -/
theorem means_unique
    {number : UnpackedFloat}
    {value other : Int}
    (means : Means number value)
    (meansOther : Means number other) :
    value = other := by
  obtain ⟨sign, magnitude, bound, rfl, taken⟩ := means
  obtain ⟨sign', magnitude', bound', rfl, taken'⟩ := meansOther
  obtain ⟨rfl, rfl⟩ := whole_inj (taken.symm.trans taken') bound bound'
  rfl

/-- A double is at most one integer. -/
theorem IsWhole.unique
    {number : Float}
    {value other : Int}
    (is : IsWhole number value)
    (isOther : IsWhole number other) :
    value = other :=
  means_unique is isOther

/-- An infinity is no whole number. -/
theorem not_means_infinity (sign : Sign) (value : Int) : ¬Means (.infinity sign) value := by
  rintro ⟨sign', magnitude, -, -, same⟩
  unfold whole at same
  split at same <;> cases same

theorem not_means_notANumber (value : Int) : ¬Means .notANumber value := by
  rintro ⟨sign, magnitude, -, -, same⟩
  unfold whole at same
  split at same <;> cases same

section Int32

/-- An integer has 32 bits if it is that of some such number. -/
theorem int32?_eq_some {value : Int} {number : Int32} :
    int32? value = some number ↔ value = number.toInt := by
  have least : Int32.minValue.toInt = -2 ^ 31 := rfl
  have greatest : Int32.maxValue.toInt = 2 ^ 31 - 1 := rfl
  constructor
  · intro found
    unfold int32? at found
    split at found
    · rename_i within
      simp only [least, greatest, Bool.and_eq_true, decide_eq_true_eq] at within
      cases found
      exact (Int32.toInt_ofInt_of_le within.1 (by omega)).symm
    · cases found
  · rintro rfl
    have lower := number.minValue_le_toInt
    have upper := number.toInt_le
    rw [int32?, if_pos (by simp only [lower, upper, decide_true, Bool.and_true]),
      Int32.ofInt_toInt]

/-- A mantissa with bits behind the point is whole if all those bits are zero. -/
theorem wholeMagnitude?_negSucc (mantissa shift : Nat) :
    wholeMagnitude? mantissa (.negSucc shift) =
      if mantissa % 2 ^ (shift + 1) = 0 then some (mantissa / 2 ^ (shift + 1)) else none := rfl

/-- The magnitude of a whole number is found again in its mantissa. -/
theorem wholeMagnitude?_whole
    {magnitude : Nat}
    (bound : magnitude < 2 ^ 53) :
    wholeMagnitude? (magnitude * 2 ^ (52 - magnitude.log2)) (magnitude.log2 - 52) =
      some magnitude := by
  have bits := log2_le_of_lt bound
  obtain ⟨shift, shiftIs⟩ : ∃ shift, 52 - magnitude.log2 = shift := ⟨_, rfl⟩
  have exponent : (magnitude.log2 : Int) - 52 = -shift := by omega
  rw [shiftIs, exponent]
  cases shift with
  | zero => simp [wholeMagnitude?]
  | succ shift =>
      have negative : -((shift + 1 : Nat) : Int) = .negSucc shift := rfl
      rw [negative, wholeMagnitude?_negSucc, if_pos (Nat.mul_mod_left _ _), Nat.mul_div_cancel _ (Nat.two_pow_pos _)]

/-- A mantissa of fewer than 53 bits, all behind the point, is not whole. -/
theorem wholeMagnitude?_of_lt
    {mantissa shift : Nat}
    (positive : 0 < mantissa)
    (small : mantissa < 2 ^ 52)
    (far : 52 ≤ shift) :
    wholeMagnitude? mantissa (.negSucc shift) = none := by
  have below : mantissa < 2 ^ (shift + 1) :=
    small.trans_le (Nat.pow_le_pow_right (by decide) (by omega))
  rw [wholeMagnitude?_negSucc, Nat.mod_eq_of_lt below, if_neg positive.ne']

/-- A double with a whole magnitude of at most 52 bits is in one form. -/
theorem finite_eq_whole
    {sign : Sign}
    {mantissa magnitude : Nat}
    {exponent : Int}
    {positive : 0 < mantissa}
    (canonical : mantissa.log2 = 52 ∨ mantissa < 2 ^ 52 ∧ exponent = -1074)
    (found : wholeMagnitude? mantissa exponent = some magnitude)
    (bound : magnitude < 2 ^ 52) :
    UnpackedFloat.finite sign mantissa exponent positive = whole sign magnitude := by
  rcases canonical with bits | ⟨small, rfl⟩
  · have atLeast := ((Nat.log2_eq_iff positive.ne').mp bits).1
    cases exponent with
    | ofNat shift =>
        simp only [wholeMagnitude?] at found
        split at found
        · cases found
          rw [Nat.shiftLeft_eq] at bound
          have shifted := Nat.le_mul_of_pos_right mantissa (Nat.two_pow_pos shift)
          omega
        · cases found
    | negSucc shift =>
        rw [wholeMagnitude?_negSucc] at found
        split at found
        · rename_i divides
          cases found
          have product := Nat.div_mul_cancel (Nat.dvd_of_mod_eq_zero divides)
          generalize mantissa / 2 ^ (shift + 1) = magnitude at product bound ⊢
          subst product
          have magnitudePositive : 0 < magnitude := Nat.pos_of_mul_pos_right positive
          rw [log2_mul_two_pow magnitudePositive] at bits
          have shiftIs : 52 - magnitude.log2 = shift + 1 := by omega
          rw [whole_of_pos sign magnitudePositive]
          simp only [shiftIs, UnpackedFloat.finite.injEq, true_and]
          omega
        · cases found
  · -- Below the least whole spacing nothing is whole.
    have least : (-1074 : Int) = .negSucc 1073 := rfl
    rw [least, wholeMagnitude?_of_lt positive small (by decide)] at found
    cases found

/-- The doubles that are 32-bit integers are whole numbers. -/
theorem toInt32?_eq_some {number : Float} {value : Int32} :
    toInt32? number = some value ↔ IsWhole number value.toInt := by
  constructor
  · intro found
    unfold toInt32? at found
    split at found
    · rename_i sign taken
      cases found
      exact ⟨sign, 0, by decide, by cases sign <;> rfl, taken⟩
    · rename_i sign mantissa exponent positive taken
      obtain ⟨magnitude, magnitudeIs, valueIs⟩ := Option.bind_eq_some_iff.mp found
      rw [int32?_eq_some] at valueIs
      have least := value.le_toInt
      have greatest := value.toInt_lt
      have bound : magnitude < 2 ^ 52 := by
        cases sign <;> simp only [Sign.apply] at valueIs <;> omega
      refine ⟨sign, magnitude, by omega, valueIs, ?_⟩
      rw [taken, finite_eq_whole (unpack_eq_finite taken) magnitudeIs bound]
    · cases found
    · cases found
  · rintro ⟨sign, magnitude, bound, valueIs, taken⟩
    rw [toInt32?, taken]
    rcases Nat.eq_zero_or_pos magnitude with rfl | positive
    · have zero : value.toInt = (0 : Int32).toInt := by
        rw [← valueIs]
        cases sign <;> rfl
      rw [whole_zero, Int32.toInt_inj.mp zero]
    · rw [whole_of_pos sign positive]
      simp only [wholeMagnitude?_whole bound, Option.bind_some]
      exact int32?_eq_some.mpr valueIs

end Int32

section Round

variable {magnitude shift : Nat}

/-- Rounding leaves a whole number of at most 53 bits as it is. -/
theorem roundWithAccuracy_whole
    (sign : Sign)
    (positive : 0 < magnitude)
    (bound : magnitude < 2 ^ 53)
    (wide : 52 ≤ magnitude.log2 + shift) :
    roundWithAccuracy Format.binary64 sign (magnitude * 2 ^ shift) (-shift) .exact =
      whole sign magnitude := by
  have bits := log2_le_of_lt bound
  obtain ⟨surplus, shiftIs⟩ : ∃ surplus, shift = 52 - magnitude.log2 + surplus :=
    ⟨shift - (52 - magnitude.log2), by omega⟩
  have mantissaBits : (magnitude * 2 ^ (52 - magnitude.log2)).log2 = 52 := by
    rw [log2_mul_two_pow positive]
    omega
  have exponent : (-shift : Int) = magnitude.log2 - 52 - surplus := by omega
  rw [exponent, shiftIs, pow_add, ← Nat.mul_assoc, whole_of_pos sign positive]
  exact roundWithAccuracy_exact sign _ mantissaBits (by omega)

/-- A whole number is not changed by rounding. -/
theorem round_whole
    (sign : Sign)
    (positive : 0 < magnitude)
    (bound : magnitude < 2 ^ 53) :
    round Format.binary64 sign (magnitude * 2 ^ shift) (-shift) = whole sign magnitude := by
  have bits := log2_le_of_lt bound
  have target : Format.binary64.targetExponent (totalExponent (magnitude * 2 ^ shift) (-shift)) =
      magnitude.log2 - 52 := by
    rw [targetExponent_binary64, log2_mul_two_pow positive]
    omega
  obtain ⟨more, moreIs⟩ : ∃ more, (-(shift : Int) - (magnitude.log2 - 52)).toNat = more := ⟨_, rfl⟩
  have exponent : -(shift : Int) - more = -(shift + more : Nat) := by omega
  rw [UnpackedFloat.round, target, decreaseExponent, moreIs]
  simp only [exponent]
  rw [Nat.shiftLeft_eq, Nat.mul_assoc, ← pow_add]
  exact roundWithAccuracy_whole sign positive bound (by omega)

/-- Normalizing leaves a whole number of at most 53 bits as it is. -/
theorem normalize_whole
    {value : Int}
    (bound : value.natAbs < 2 ^ 53) :
    Means (normalize Format.binary64 (value * 2 ^ shift) (-shift) .positive) value := by
  have unit : (0 : Int) < 2 ^ shift := Int.pow_pos (by decide)
  rcases Int.lt_trichotomy value 0 with negative | rfl | positive
  · have mantissa : (-(value * 2 ^ shift)).toNat = value.natAbs * 2 ^ shift := by
      have scaled : -(value * 2 ^ shift) = ((value.natAbs * 2 ^ shift : Nat) : Int) := by
        push_cast
        rw [abs_of_neg negative, neg_mul]
      rw [scaled, Int.toNat_natCast]
    refine ⟨.negative, value.natAbs, bound, by simp only [Sign.apply]; omega, ?_⟩
    rw [UnpackedFloat.normalize, Int.compare_eq_lt.mpr (Int.mul_neg_of_neg_of_pos negative unit)]
    simp only [mantissa]
    exact round_whole .negative (by omega) bound
  · simpa [UnpackedFloat.normalize] using means_zero .positive
  · have mantissa : (value * 2 ^ shift).toNat = value.natAbs * 2 ^ shift := by
      have scaled : value * 2 ^ shift = ((value.natAbs * 2 ^ shift : Nat) : Int) := by
        push_cast
        rw [abs_of_pos positive]
      rw [scaled, Int.toNat_natCast]
    refine ⟨.positive, value.natAbs, bound, by simp only [Sign.apply]; omega, ?_⟩
    rw [UnpackedFloat.normalize, Int.compare_eq_gt.mpr (Int.mul_pos positive unit)]
    simp only [mantissa]
    exact round_whole .positive (by omega) bound

end Round

section Arithmetic

variable {left right : UnpackedFloat} {value value' : Int}

theorem apply_zero (sign : Sign) : sign.apply (0 : Nat) = 0 := by
  cases sign <;> rfl

theorem natAbs_apply (sign : Sign) (value : Nat) : (sign.apply value).natAbs = value := by
  cases sign
  · exact Int.natAbs_neg value
  · rfl

theorem apply_neg (sign : Sign) (value : Int) : (-sign).apply value = -sign.apply value := by
  cases sign
  · exact (Int.neg_neg value).symm
  · rfl

theorem apply_mul (sign : Sign) (value factor : Int) :
    sign.apply (value * factor) = sign.apply value * factor := by
  cases sign <;> simp [Sign.apply]

/-- Two whole numbers brought to a common exponent. -/
theorem exists_shift
    {magnitude magnitude' : Nat}
    (bound : magnitude < 2 ^ 53)
    (bound' : magnitude' < 2 ^ 53) :
    ∃ shift : Nat,
      min ((magnitude.log2 : Int) - 52) (magnitude'.log2 - 52) = -shift ∧
      (magnitude * 2 ^ (52 - magnitude.log2)) <<< ((magnitude.log2 : Int) - 52 - -shift).toNat =
        magnitude * 2 ^ shift ∧
      (magnitude' * 2 ^ (52 - magnitude'.log2)) <<< ((magnitude'.log2 : Int) - 52 - -shift).toNat =
        magnitude' * 2 ^ shift := by
  have bits := log2_le_of_lt bound
  have bits' := log2_le_of_lt bound'
  refine ⟨max (52 - magnitude.log2) (52 - magnitude'.log2), by omega, ?_, ?_⟩
  · rw [Nat.shiftLeft_eq, Nat.mul_assoc, ← pow_add]
    congr 2
    omega
  · rw [Nat.shiftLeft_eq, Nat.mul_assoc, ← pow_add]
    congr 2
    omega

/-- Whole numbers are added exactly, if the sum has at most 53 bits. -/
theorem add_means
    (means : Means left value)
    (means' : Means right value')
    (bound : (value + value').natAbs < 2 ^ 53) :
    Means (add Format.binary64 left right) (value + value') := by
  obtain ⟨sign, magnitude, small, rfl, rfl⟩ := means
  obtain ⟨sign', magnitude', small', rfl, rfl⟩ := means'
  rcases Nat.eq_zero_or_pos magnitude with rfl | positive <;>
    rcases Nat.eq_zero_or_pos magnitude' with rfl | positive'
  · rw [whole_zero, whole_zero, apply_zero, apply_zero]
    simp only [add]
    split <;> exact means_zero _
  · have kept : add Format.binary64 (whole sign 0) (whole sign' magnitude') =
        whole sign' magnitude' := by
      rw [whole_of_pos sign' positive']
      rfl
    rw [kept, apply_zero, zero_add]
    exact means_whole sign' small'
  · have kept : add Format.binary64 (whole sign magnitude) (whole sign' 0) =
        whole sign magnitude := by
      rw [whole_of_pos sign positive]
      rfl
    rw [kept, apply_zero, add_zero]
    exact means_whole sign small
  · obtain ⟨shift, exponent, scaled, scaled'⟩ := exists_shift small small'
    have sum : sign.apply (magnitude * 2 ^ shift : Nat) + sign'.apply (magnitude' * 2 ^ shift : Nat) =
        (sign.apply magnitude + sign'.apply magnitude') * 2 ^ shift := by
      push_cast
      rw [apply_mul, apply_mul, add_mul]
    rw [whole_of_pos sign positive, whole_of_pos sign' positive']
    simp only [add, exponent, decreaseExponent, scaled, scaled', sum]
    exact normalize_whole bound

/-- Whole numbers are negated exactly. -/
theorem neg_means (means : Means left value) : Means left.neg (-value) := by
  obtain ⟨sign, magnitude, small, rfl, rfl⟩ := means
  refine ⟨-sign, magnitude, small, apply_neg sign magnitude, ?_⟩
  rcases Nat.eq_zero_or_pos magnitude with rfl | positive
  · rfl
  · rw [whole_of_pos sign positive, whole_of_pos (-sign) positive]
    rfl

/-- A difference is the sum with the negated number. -/
theorem sub_eq_add_neg (spec : Format) (left right : UnpackedFloat) :
    sub spec left right = add spec left right.neg := by
  cases left <;> cases right <;> simp only [sub, add, UnpackedFloat.neg]
  case finite.finite => simp only [apply_neg, Int.sub_eq_add_neg]

/-- Whole numbers are subtracted exactly, if the difference has at most 53 bits. -/
theorem sub_means
    (means : Means left value)
    (means' : Means right value')
    (bound : (value - value').natAbs < 2 ^ 53) :
    Means (sub Format.binary64 left right) (value - value') := by
  rw [sub_eq_add_neg, Int.sub_eq_add_neg]
  exact add_means means (neg_means means') bound

theorem apply_mul_apply (sign sign' : Sign) (value value' : Int) :
    sign.apply value * sign'.apply value' = (sign * sign').apply (value * value') := by
  cases sign <;> cases sign'
  · exact neg_mul_neg value value'
  · exact neg_mul value value'
  · exact mul_neg value value'
  · rfl

theorem mul_mantissas (magnitude magnitude' : Nat) :
    magnitude * 2 ^ (52 - magnitude.log2) * (magnitude' * 2 ^ (52 - magnitude'.log2)) =
      magnitude * magnitude' * 2 ^ (52 - magnitude.log2 + (52 - magnitude'.log2)) := by
  ring

/-- Whole numbers are multiplied exactly, if the product has at most 53 bits. -/
theorem mul_means
    (means : Means left value)
    (means' : Means right value')
    (bound : (value * value').natAbs < 2 ^ 53) :
    Means (mul Format.binary64 left right) (value * value') := by
  obtain ⟨sign, magnitude, small, rfl, rfl⟩ := means
  obtain ⟨sign', magnitude', small', rfl, rfl⟩ := means'
  rw [apply_mul_apply, ← Nat.cast_mul] at bound ⊢
  have product : magnitude * magnitude' < 2 ^ 53 := by
    rwa [natAbs_apply] at bound
  refine ⟨sign * sign', magnitude * magnitude', product, rfl, ?_⟩
  rcases Nat.eq_zero_or_pos magnitude with rfl | positive <;>
    rcases Nat.eq_zero_or_pos magnitude' with rfl | positive'
  · rfl
  · rw [whole_of_pos sign' positive', Nat.zero_mul]
    rfl
  · rw [whole_of_pos sign positive, Nat.mul_zero]
    rfl
  · have bits := log2_le_of_lt small
    have bits' := log2_le_of_lt small'
    have exponents : (magnitude.log2 : Int) - 52 + (magnitude'.log2 - 52) =
        -((52 - magnitude.log2 + (52 - magnitude'.log2) : Nat) : Int) := by omega
    have wide : magnitude.log2 + magnitude'.log2 ≤ (magnitude * magnitude').log2 := by
      rw [Nat.le_log2 (Nat.mul_pos positive positive').ne', pow_add]
      exact Nat.mul_le_mul (Nat.log2_self_le positive.ne') (Nat.log2_self_le positive'.ne')
    rw [whole_of_pos sign positive, whole_of_pos sign' positive']
    simp only [mul, mul_mantissas, exponents]
    exact roundWithAccuracy_whole _ (Nat.mul_pos positive positive') product (by omega)

/-- A product of more than 53 bits is no whole number of fewer bits, however it is
rounded. -/
theorem mul_large
    (means : Means left value)
    (means' : Means right value')
    (large : 2 ^ 53 ≤ (value * value').natAbs)
    (result : Int) :
    ¬Means (Float.Model.pack (mul Format.binary64 left right)).unpack result := by
  obtain ⟨sign, magnitude, small, rfl, rfl⟩ := means
  obtain ⟨sign', magnitude', small', rfl, rfl⟩ := means'
  rw [apply_mul_apply, ← Nat.cast_mul, natAbs_apply] at large
  have productPositive : 0 < magnitude * magnitude' := by omega
  have positive := Nat.pos_of_mul_pos_right productPositive
  have positive' := Nat.pos_of_mul_pos_left productPositive
  have bits := log2_le_of_lt small
  have bits' := log2_le_of_lt small'
  have productBits := (Nat.le_log2 productPositive.ne').mpr large
  have productLess : (magnitude * magnitude').log2 < 106 := by
    rw [Nat.log2_lt productPositive.ne']
    calc magnitude * magnitude' < 2 ^ 53 * 2 ^ 53 := Nat.mul_lt_mul'' small small'
      _ = 2 ^ 106 := by norm_num
  have exponents : (magnitude.log2 : Int) - 52 + (magnitude'.log2 - 52) =
      -((52 - magnitude.log2 + (52 - magnitude'.log2) : Nat) : Int) := by omega
  have mantissas := mul_mantissas magnitude magnitude'
  generalize 52 - magnitude.log2 + (52 - magnitude'.log2) = shift at exponents mantissas
  have allBits : (magnitude * magnitude' * 2 ^ shift).log2 =
      52 + ((magnitude * magnitude').log2 - 52 + shift) := by
    rw [log2_mul_two_pow productPositive]
    omega
  obtain ⟨last, carry, lastPositive, rounds, lastBits, carryLe, -⟩ :=
    roundWithAccuracy_near (-shift) (sign * sign') .exact allBits (by omega)
  rw [whole_of_pos sign positive, whole_of_pos sign' positive']
  simp only [mul, mantissas, exponents, rounds]
  rw [unpack_pack_finite _ lastPositive lastBits (by omega) (by omega)]
  rintro ⟨sign'', magnitude'', small'', -, same⟩
  have bits'' := log2_le_of_lt small''
  unfold whole at same
  split at same
  · have exponent := (UnpackedFloat.finite.inj same).2.2
    omega
  · cases same

/-- The remainder of whole numbers is exact, and has the sign of the dividend. -/
theorem remainder_means
    (means : Means left value)
    (means' : Means right value')
    (nonzero : value' ≠ 0) :
    Means (remainderUnpacked left right) (value.tmod value') := by
  obtain ⟨sign, magnitude, small, rfl, rfl⟩ := means
  obtain ⟨sign', magnitude', small', rfl, rfl⟩ := means'
  have positive' : 0 < magnitude' := by
    rcases Nat.eq_zero_or_pos magnitude' with rfl | positive'
    · exact absurd (apply_zero sign') nonzero
    · exact positive'
  have rest : (sign.apply magnitude).tmod (sign'.apply magnitude') =
      sign.apply (magnitude % magnitude' : Nat) := by
    cases sign <;> cases sign' <;>
      simp only [Sign.apply, Int.ofNat_tmod, Int.neg_tmod, Int.tmod_neg]
  rw [rest, whole_of_pos sign' positive']
  rcases Nat.eq_zero_or_pos magnitude with rfl | positive
  · rw [Nat.zero_mod, apply_zero]
    exact means_zero sign
  · obtain ⟨shift, exponent, scaled, scaled'⟩ := exists_shift small small'
    have less := Nat.mod_lt magnitude positive'
    rw [whole_of_pos sign positive]
    simp only [remainderUnpacked, exponent, scaled, scaled', Nat.mul_mod_mul_right]
    rcases Nat.eq_zero_or_pos (magnitude % magnitude') with none | some
    · rw [none, Nat.zero_mul, apply_zero]
      exact means_zero sign
    · have restPositive := Nat.mul_pos some (Nat.two_pow_pos shift)
      split
      · omega
      · rw [round_whole sign some (by omega)]
        exact means_whole sign (by omega)

/-- There is no remainder by zero. -/
theorem remainder_zero
    (means : Means left value)
    (means' : Means right 0)
    (result : Int) :
    ¬Means (Float.Model.pack (remainderUnpacked left right)).unpack result := by
  obtain ⟨sign, magnitude, -, -, rfl⟩ := means
  obtain ⟨sign', magnitude', -, zero, rfl⟩ := means'
  obtain rfl : magnitude' = 0 := by rw [← natAbs_apply sign' magnitude', zero]; rfl
  have none : remainderUnpacked (whole sign magnitude) (whole sign' 0) = .notANumber := by
    unfold whole
    split <;> rfl
  rw [none, unpack_pack_notANumber]
  exact not_means_notANumber result

end Arithmetic

end Number
end Pictogram
