import Pictogram.Proofs.Number.Whole

/-!
# Doubles that are integers

A double that is an integer has a mantissa of 53 bits, unless it is zero.  Such doubles are
ordered as the integers are, however large, and up to 2 to the 53 one can be added without
rounding.
-/

namespace Pictogram
namespace Number

open Float.Model (UnpackedFloat Format)
open Float.Model.UnpackedFloat

/-- The value of a number taken apart. -/
def rational? : UnpackedFloat → Option ℚ
  | .zero _ => some 0
  | .finite sign mantissa exponent _ => some (sign.apply mantissa * 2 ^ exponent)
  | .infinity _ | .notANumber => none

/-- The value of a double is an integer. -/
def IsExactly (number : Float) (value : Int) : Prop :=
  rational? number.toModel.unpack = some (value : ℚ)

/-- A number taken apart is an integer, with 53 bits in its mantissa unless it is zero. -/
inductive Normal : UnpackedFloat → Int → Prop
  | zero (sign : Sign) : Normal (.zero sign) 0
  | finite {sign : Sign} {mantissa magnitude : Nat} {exponent : Int} {positive : 0 < mantissa} :
      mantissa.log2 = 52 → (magnitude : ℚ) = mantissa * 2 ^ exponent →
      Normal (.finite sign mantissa exponent positive) (sign.apply magnitude)

section Scaled

variable {mantissa magnitude : Nat} {exponent : Int}

/-- The exponent of an integer depends on the number of its bits only. -/
theorem exponent_eq
    (bits : mantissa.log2 = 52)
    (scaled : (magnitude : ℚ) = mantissa * 2 ^ exponent) :
    0 < magnitude ∧ exponent = magnitude.log2 - 52 ∧
      magnitude * 2 ^ 52 = mantissa * 2 ^ magnitude.log2 := by
  have positive : 0 < mantissa := by
    apply Nat.pos_of_ne_zero
    rintro rfl
    cases bits
  cases exponent with
  | ofNat shift =>
      have product : magnitude = mantissa * 2 ^ shift := by
        rw [Int.ofNat_eq_natCast, zpow_natCast] at scaled
        exact_mod_cast scaled
      have magnitudeBits : magnitude.log2 = 52 + shift := by
        rw [product, log2_mul_two_pow positive, bits]
      refine ⟨product ▸ Nat.mul_pos positive (Nat.two_pow_pos _), ?_, ?_⟩
      · rw [magnitudeBits]
        simp
      · rw [magnitudeBits, product, pow_add]
        ring
  | negSucc shift =>
      have product : magnitude * 2 ^ (shift + 1) = mantissa := by
        rw [zpow_negSucc] at scaled
        have unit : (2 : ℚ) ^ (shift + 1) ≠ 0 := by positivity
        rw [← div_eq_mul_inv, eq_div_iff unit] at scaled
        exact_mod_cast scaled
      have magnitudePositive : 0 < magnitude := Nat.pos_of_mul_pos_right (product ▸ positive)
      have magnitudeBits : magnitude.log2 + (shift + 1) = 52 := by
        rw [← log2_mul_two_pow magnitudePositive, product, bits]
      refine ⟨magnitudePositive, by omega, ?_⟩
      rw [← product, ← magnitudeBits, pow_add]
      ring

/-- A number of fewer bits is less. -/
theorem lt_of_log2_lt
    {magnitude' : Nat}
    (positive : 0 < magnitude')
    (less : magnitude.log2 < magnitude'.log2) :
    magnitude < magnitude' :=
  calc magnitude < 2 ^ (magnitude.log2 + 1) := Nat.lt_log2_self
    _ ≤ 2 ^ magnitude'.log2 := Nat.pow_le_pow_right (by decide) less
    _ ≤ magnitude' := Nat.log2_self_le positive.ne'

/-- Exponents are compared before mantissas. -/
theorem compare_scaled
    {mantissa' magnitude' : Nat}
    {exponent' : Int}
    (bits : mantissa.log2 = 52)
    (bits' : mantissa'.log2 = 52)
    (scaled : (magnitude : ℚ) = mantissa * 2 ^ exponent)
    (scaled' : (magnitude' : ℚ) = mantissa' * 2 ^ exponent') :
    (compare exponent exponent').then (compare mantissa mantissa') =
      compare (magnitude : Int) magnitude' := by
  obtain ⟨positive, rfl, product⟩ := exponent_eq bits scaled
  obtain ⟨positive', rfl, product'⟩ := exponent_eq bits' scaled'
  rcases Nat.lt_trichotomy magnitude.log2 magnitude'.log2 with less | same | greater
  · have below := lt_of_log2_lt positive' less
    rw [Int.compare_eq_lt.mpr (by omega), Int.compare_eq_lt.mpr (by omega)]
    rfl
  · have ordered : ∀ {first second first' second' : Nat},
        first * 2 ^ 52 = second * 2 ^ magnitude.log2 →
        first' * 2 ^ 52 = second' * 2 ^ magnitude.log2 →
        (second < second' ↔ first < first') := by
      intro first second first' second' equal equal'
      rw [← Nat.mul_lt_mul_right (Nat.two_pow_pos magnitude.log2), ← equal, ← equal',
        Nat.mul_lt_mul_right (Nat.two_pow_pos 52)]
    rw [← same] at product' ⊢
    rw [Int.compare_eq_eq.mpr rfl, Ordering.then]
    simp only [Nat.compare_eq_ite_lt, Int.compare_eq_ite_lt, Nat.cast_lt,
      ordered product product', ordered product' product]
  · have below := lt_of_log2_lt positive greater
    rw [Int.compare_eq_gt.mpr (by omega), Int.compare_eq_gt.mpr (by omega)]
    rfl

end Scaled

section Normal

variable {left right : UnpackedFloat} {value value' : Int}

/-- Normal numbers compare as their values do. -/
theorem Normal.compare (normal : Normal left value) (normal' : Normal right value') :
    left.compare right = some (compare value value') := by
  cases normal with
  | zero sign =>
      cases normal' with
      | zero sign' => rfl
      | @finite sign' _ _ _ _ bits' scaled' =>
          have positive' := (exponent_eq bits' scaled').1
          cases sign'
          · exact congrArg some (Int.compare_eq_gt.mpr (by simp only [Sign.apply]; omega)).symm
          · exact congrArg some (Int.compare_eq_lt.mpr (by simp only [Sign.apply]; omega)).symm
  | @finite sign _ _ _ _ bits scaled =>
      have positive := (exponent_eq bits scaled).1
      cases normal' with
      | zero sign' =>
          cases sign
          · exact congrArg some (Int.compare_eq_lt.mpr (by simp only [Sign.apply]; omega)).symm
          · exact congrArg some (Int.compare_eq_gt.mpr (by simp only [Sign.apply]; omega)).symm
      | @finite sign' _ _ _ _ bits' scaled' =>
          have positive' := (exponent_eq bits' scaled').1
          have magnitudes := compare_scaled bits bits' scaled scaled'
          cases sign <;> cases sign' <;> simp only [UnpackedFloat.compare, Sign.apply]
          · rw [magnitudes, Int.compare_swap]
            simp only [Int.compare_eq_ite_lt, neg_lt_neg_iff]
          · exact congrArg some (Int.compare_eq_lt.mpr (by omega)).symm
          · exact congrArg some (Int.compare_eq_gt.mpr (by omega)).symm
          · rw [magnitudes]

/-- A whole number of at most 53 bits is put together from a mantissa of 53 bits. -/
theorem Means.normal (means : Means left value) : Normal left value := by
  obtain ⟨sign, magnitude, small, rfl, rfl⟩ := means
  rcases Nat.eq_zero_or_pos magnitude with rfl | positive
  · rw [apply_zero]
    exact .zero sign
  · have bits := log2_le_of_lt small
    rw [whole_of_pos sign positive]
    apply Normal.finite
    · rw [log2_mul_two_pow positive]
      omega
    · have exponent : ((magnitude.log2 : Int) - 52) = -((52 - magnitude.log2 : Nat) : Int) := by
        omega
      rw [exponent, zpow_neg, zpow_natCast]
      push_cast
      rw [mul_inv_cancel_right₀ (by positivity)]

/-- A normal number of at most 53 bits is a whole number. -/
theorem Normal.means (normal : Normal left value) (small : value.natAbs < 2 ^ 53) :
    Means left value := by
  cases normal with
  | zero sign => exact means_zero sign
  | @finite sign mantissa magnitude exponent positive bits scaled =>
      rw [natAbs_apply] at small
      have most := log2_le_of_lt small
      obtain ⟨magnitudePositive, rfl, product⟩ := exponent_eq bits scaled
      have mantissaIs : mantissa = magnitude * 2 ^ (52 - magnitude.log2) := by
        apply Nat.eq_of_mul_eq_mul_right (Nat.two_pow_pos magnitude.log2)
        rw [← product, Nat.mul_assoc, ← pow_add, Nat.sub_add_cancel most]
      refine ⟨sign, magnitude, small, rfl, ?_⟩
      rw [whole_of_pos sign magnitudePositive]
      simp only [mantissaIs]

/-- The value of a normal number is its integer. -/
theorem Normal.rational?_eq (normal : Normal left value) : rational? left = some (value : ℚ) := by
  cases normal with
  | zero sign => simp [rational?]
  | @finite sign mantissa magnitude exponent positive bits scaled =>
      cases sign <;> simp [rational?, Sign.apply, scaled]

end Normal

section Exactly

variable {number : Float} {value : Int}

theorem apply_apply (sign : Sign) (value : Int) : sign.apply (sign.apply value) = value := by
  cases sign
  · exact Int.neg_neg value
  · rfl

/-- The value of a double, without its sign. -/
theorem scaled_of_rational?
    {sign : Sign}
    {mantissa : Nat}
    {exponent : Int}
    {positive : 0 < mantissa}
    (is : rational? (.finite sign mantissa exponent positive) = some (value : ℚ)) :
    ∃ magnitude : Nat, value = sign.apply magnitude ∧
      (magnitude : ℚ) = mantissa * 2 ^ exponent := by
  have unsigned : ((sign.apply value : Int) : ℚ) = mantissa * 2 ^ exponent := by
    rw [rational?, Option.some.injEq] at is
    cases sign <;> simp [Sign.apply, ← is]
  have atLeast : 0 ≤ sign.apply value := by
    have atLeastRational : (0 : ℚ) ≤ (sign.apply value : Int) := by
      rw [unsigned]
      positivity
    exact_mod_cast atLeastRational
  obtain ⟨magnitude, magnitudeIs⟩ := Int.eq_ofNat_of_zero_le atLeast
  refine ⟨magnitude, ?_, ?_⟩
  · rw [← magnitudeIs, apply_apply]
  · rw [← unsigned, magnitudeIs, Int.cast_natCast]

/-- The least doubles are too small to be integers. -/
theorem not_scaled_least
    {mantissa magnitude shift : Nat}
    (positive : 0 < mantissa)
    (small : mantissa < 2 ^ 52)
    (far : 52 ≤ shift) :
    (magnitude : ℚ) ≠ mantissa * 2 ^ (-shift : Int) := by
  intro scaled
  have product : magnitude * 2 ^ shift = mantissa := by
    rw [zpow_neg, zpow_natCast, ← div_eq_mul_inv, eq_div_iff (by positivity)] at scaled
    exact_mod_cast scaled
  have magnitudePositive : 0 < magnitude := Nat.pos_of_mul_pos_right (product ▸ positive)
  have large : 2 ^ 52 ≤ magnitude * 2 ^ shift :=
    calc 2 ^ 52 ≤ 2 ^ shift := Nat.pow_le_pow_right (by decide) far
      _ ≤ magnitude * 2 ^ shift := Nat.le_mul_of_pos_left _ magnitudePositive
  omega

/-- The doubles that are integers are in one form. -/
theorem IsExactly.normal (is : IsExactly number value) : Normal number.toModel.unpack value := by
  unfold IsExactly at is
  cases taken : number.toModel.unpack with
  | notANumber =>
      rw [taken] at is
      cases is
  | infinity sign =>
      rw [taken] at is
      cases is
  | zero sign =>
      rw [taken] at is
      obtain rfl : value = 0 := by simpa [rational?] using is.symm
      exact .zero sign
  | finite sign mantissa exponent positive =>
      rw [taken] at is
      obtain ⟨magnitude, rfl, scaled⟩ := scaled_of_rational? is
      rcases unpack_eq_finite taken with bits | ⟨small, rfl⟩
      · exact .finite bits scaled
      · exact absurd scaled (not_scaled_least positive small (by decide : 52 ≤ 1074))

/-- Doubles that are integers are ordered as the integers are. -/
theorem IsExactly.lt_iff
    {other : Float}
    {value' : Int}
    (is : IsExactly number value)
    (isOther : IsExactly other value') :
    number < other ↔ value < value' := by
  have compared := is.normal.compare isOther.normal
  have unfolded : number < other ↔
      (number.toModel.unpack.compare other.toModel.unpack == some .lt) = true := decide_eq_true_iff
  rw [unfolded, compared, ← Int.compare_eq_lt]
  simp

end Exactly

section AddOne

theorem isWhole_one : IsWhole 1.0 1 := by
  refine toInt32?_eq_some.mp (?_ : _ = some (1 : Int32))
  rfl

/-- At the lower end the mantissa takes another bit. -/
theorem Normal.eq_least {number : UnpackedFloat} (normal : Normal number (-2 ^ 53)) :
    number = .finite .negative (2 ^ 52) 1 (Nat.two_pow_pos 52) := by
  generalize valueIs : (-2 ^ 53 : Int) = value at normal
  cases normal with
  | zero sign => cases valueIs
  | @finite sign mantissa magnitude exponent positive bits scaled =>
      obtain ⟨-, rfl, product⟩ := exponent_eq bits scaled
      cases sign with
      | positive =>
          simp only [Sign.apply] at valueIs
          omega
      | negative =>
          obtain rfl : magnitude = 2 ^ 53 := by
            simp only [Sign.apply] at valueIs
            omega
          have magnitudeBits : (2 ^ 53 : Nat).log2 = 53 := Nat.log2_two_pow
          obtain rfl : mantissa = 2 ^ 52 := by
            rw [magnitudeBits] at product
            omega
          rw [UnpackedFloat.finite.injEq]
          exact ⟨rfl, rfl, by rw [magnitudeBits]; rfl⟩

/-- The greatest whole number of 53 bits is taken apart in one way only. -/
theorem Means.eq_greatest {number : UnpackedFloat} (means : Means number (2 ^ 53 - 1)) :
    number = whole .positive (2 ^ 53 - 1) := by
  obtain ⟨sign, magnitude, small, valueIs, rfl⟩ := means
  cases sign with
  | negative =>
      simp only [Sign.apply] at valueIs
      omega
  | positive =>
      obtain rfl : magnitude = 2 ^ 53 - 1 := by
        simp only [Sign.apply] at valueIs
        omega
      rfl

/-- Up to 2 to the 53 one can be added without rounding. -/
theorem IsExactly.add_one
    {number : Float}
    {value : Int}
    (is : IsExactly number value)
    (least : -2 ^ 53 ≤ value)
    (most : value < 2 ^ 53) :
    IsExactly (number + 1.0) (value + 1) := by
  show rational? (Float.Model.pack (add Format.binary64 number.toModel.unpack
    (1.0 : Float).toModel.unpack)).unpack = _
  -- At both ends one of the summands or the sum has 54 bits, and there is one case only.
  rcases eq_or_ne value (-2 ^ 53) with rfl | notLeast
  · have sum : (Float.Model.pack (add Format.binary64
        (.finite .negative (2 ^ 52) 1 (Nat.two_pow_pos 52)) (1.0 : Float).toModel.unpack)).unpack =
        .finite .negative (2 ^ 53 - 1) 0 (by decide) := rfl
    rw [is.normal.eq_least, sum]
    norm_num [rational?, Sign.apply]
  · rcases eq_or_ne value (2 ^ 53 - 1) with rfl | notGreatest
    · have sum : (Float.Model.pack (add Format.binary64 (whole .positive (2 ^ 53 - 1))
          (1.0 : Float).toModel.unpack)).unpack =
          .finite .positive (2 ^ 52) 1 (Nat.two_pow_pos 52) := rfl
      rw [(is.normal.means (by decide)).eq_greatest, sum]
      norm_num [rational?, Sign.apply]
    · have means : Means number.toModel.unpack value := is.normal.means (by omega)
      exact (add_means means isWhole_one (by omega)).isWhole.normal.rational?_eq

end AddOne

end Number
end Pictogram
