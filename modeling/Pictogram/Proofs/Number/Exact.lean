import Pictogram.Proofs.Number.Integer
import Pictogram.Proofs.Number.Quotient
import Pictogram.Value

/-!
# Doubles in place of 32-bit integers

As long as operands and result are 32-bit integers, arithmetic of doubles is that
of the integers.  A double that is one has at most 32 bits, far fewer than where
rounding begins.
-/

namespace Pictogram
namespace Number

open Float.Model (UnpackedFloat Format)
open Float.Model.UnpackedFloat

/-- An integer result of whole doubles that is a 32-bit integer. -/
theorem eq_ofInt
    {number : Float}
    {value : Int}
    {result : Int32}
    (is : IsWhole number value)
    (isResult : toInt32? number = some result) :
    result = Int32.ofInt value := by
  rw [← (toInt32?_eq_some.mp isResult).unique is, Int32.ofInt_toInt]

section Operations

variable {left right : Float} {first second result : Int32}

/-- The magnitude of an integer of 32 bits is at most `2 ^ 31`. -/
theorem natAbs_toInt_le (value : Int32) : value.toInt.natAbs ≤ 2 ^ 31 := by
  have least := value.le_toInt
  have greatest := value.toInt_lt
  omega

/-- If the negation of a double is an integer of 32 bits, it is that of the integer. -/
theorem eq_neg
    (isLeft : toInt32? left = some first)
    (isResult : toInt32? (-left) = some result) :
    result = -first := by
  have whole : IsWhole (-left) (-first.toInt) :=
    (neg_means (toInt32?_eq_some.mp isLeft)).isWhole
  rw [eq_ofInt whole isResult, Int32.ofInt_neg, Int32.ofInt_toInt]

variable (isLeft : toInt32? left = some first) (isRight : toInt32? right = some second)

include isLeft isRight

/-- If a sum of doubles is an integer of 32 bits, it is that of the integers, without overflow. -/
theorem eq_add (isResult : toInt32? (left + right) = some result) : result = first + second := by
  have bound := natAbs_toInt_le first
  have bound' := natAbs_toInt_le second
  have whole : IsWhole (left + right) (first.toInt + second.toInt) :=
    (add_means (toInt32?_eq_some.mp isLeft) (toInt32?_eq_some.mp isRight) (by omega)).isWhole
  rw [eq_ofInt whole isResult, Int32.ofInt_add, Int32.ofInt_toInt, Int32.ofInt_toInt]

theorem eq_sub (isResult : toInt32? (left - right) = some result) : result = first - second := by
  have bound := natAbs_toInt_le first
  have bound' := natAbs_toInt_le second
  have whole : IsWhole (left - right) (first.toInt - second.toInt) :=
    (sub_means (toInt32?_eq_some.mp isLeft) (toInt32?_eq_some.mp isRight) (by omega)).isWhole
  rw [eq_ofInt whole isResult, Int32.ofInt_sub, Int32.ofInt_toInt, Int32.ofInt_toInt]

theorem eq_mul (isResult : toInt32? (left * right) = some result) : result = first * second := by
  have isFirst := toInt32?_eq_some.mp isLeft
  have isSecond := toInt32?_eq_some.mp isRight
  have bound : (first.toInt * second.toInt).natAbs < 2 ^ 53 := by
    by_contra large
    exact mul_large isFirst isSecond (not_lt.mp large) _ (toInt32?_eq_some.mp isResult)
  have whole : IsWhole (left * right) (first.toInt * second.toInt) :=
    (mul_means isFirst isSecond bound).isWhole
  rw [eq_ofInt whole isResult, Int32.ofInt_mul, Int32.ofInt_toInt, Int32.ofInt_toInt]

/-- A whole quotient is that of the integers, and there is none by zero. -/
theorem eq_div (isResult : toInt32? (left / right) = some result) :
    second ≠ 0 ∧ result = first / second := by
  have bound := natAbs_toInt_le first
  obtain ⟨nonzero, product⟩ := div_means (toInt32?_eq_some.mp isLeft)
    (toInt32?_eq_some.mp isRight) (by omega) (toInt32?_eq_some.mp isResult)
  refine ⟨fun zero => nonzero (by rw [zero]; rfl), ?_⟩
  rw [← Int32.toInt_inj, Int32.toInt_div, ← product, Int.mul_tdiv_cancel _ nonzero,
    Int32.toInt_bmod]

/-- A remainder is that of the integers, and there is none by zero. -/
theorem eq_remainder (isResult : toInt32? (remainder left right) = some result) :
    second ≠ 0 ∧ result = first % second := by
  have isFirst := toInt32?_eq_some.mp isLeft
  have isSecond := toInt32?_eq_some.mp isRight
  by_cases zero : second = 0
  · exfalso
    rw [zero] at isSecond
    exact remainder_zero isFirst isSecond _ (toInt32?_eq_some.mp isResult)
  · have nonzero : second.toInt ≠ 0 := fun toIntZero => zero (Int32.toInt_inj.mp toIntZero)
    have whole : IsWhole (remainder left right) (first.toInt.tmod second.toInt) :=
      (remainder_means isFirst isSecond nonzero).isWhole
    refine ⟨zero, ?_⟩
    rw [← Int32.toInt_inj, Int32.toInt_mod]
    exact (toInt32?_eq_some.mp isResult).unique whole

/-- Doubles that are integers compare as the integers do. -/
theorem compare_eq : left.toModel.unpack.compare right.toModel.unpack =
    some (compare first.toInt second.toInt) :=
  (toInt32?_eq_some.mp isLeft).normal.compare (toInt32?_eq_some.mp isRight).normal

theorem lt_iff : left < right ↔ first < second := by
  have compared := compare_eq isLeft isRight
  have unfolded : left < right ↔
      (left.toModel.unpack.compare right.toModel.unpack == some .lt) = true := decide_eq_true_iff
  rw [unfolded, compared, Int32.lt_iff_toInt_lt, ← Int.compare_eq_lt]
  simp

theorem le_iff : left ≤ right ↔ first ≤ second := by
  have compared := compare_eq isLeft isRight
  have unfolded : left ≤ right ↔
      (left.toModel.unpack.compare right.toModel.unpack).any (·.isLE) = true :=
    decide_eq_true_iff
  rw [unfolded, compared, Int32.le_iff_toInt_le, ← Int.isLE_compare]
  rfl

theorem beq_eq : (left == right) = decide (first = second) := by
  have compared := compare_eq isLeft isRight
  have unfolded : (left == right) =
      (left.toModel.unpack.compare right.toModel.unpack == some .eq) := rfl
  rw [unfolded, compared, Bool.eq_iff_iff, decide_eq_true_eq, ← Int32.toInt_inj,
    ← Int.compare_eq_eq]
  simp

end Operations

/-- A whole number is a number. -/
theorem isNaN_eq_false {number : Float} {value : Int} (is : IsWhole number value) :
    number.isNaN = false := by
  obtain ⟨sign, magnitude, -, -, taken⟩ := is
  have unfolded : number.isNaN = number.toModel.unpack.isNaN := rfl
  rw [unfolded, taken]
  unfold whole
  split <;> rfl

/-- An integer holds as a test if it is not zero. -/
theorem isTruthy_eq
    {number : Float}
    {value : Int32}
    (is : toInt32? number = some value) :
    (Value.number number).isTruthy = decide (value ≠ 0) := by
  have zero : toInt32? 0.0 = some 0 := rfl
  have same := beq_eq is zero
  rw [Value.isTruthy, isNaN_eq_false (toInt32?_eq_some.mp is), bne, same]
  simp

end Number
end Pictogram
