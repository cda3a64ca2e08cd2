import Pictogram.Number.Layout
import Pictogram.Proofs.Number.Whole

/-!
# Whole numbers as they are printed

The only whole number that reads back as a double of at most 53 bits is that double
itself.  So its shortest decimal is the number without the zeros at its end, and what
is printed is the number in decimal.
-/

namespace Pictogram
namespace Number

open Float.Model (UnpackedFloat Format)
open Float.Model.UnpackedFloat

section Reach

variable {magnitude shift : Nat}

/-- The reach of a whole number, in units of a power of ten. -/
def wholeReach (magnitude shift places : Nat) : Reach :=
  (Reach.ofDouble (magnitude * 2 ^ shift) (-shift)).scale (-places)

/-- The denominator of the reach of a whole number is a power of ten, times one of two. -/
theorem unit_wholeReach (magnitude shift places : Nat) :
    (wholeReach magnitude shift places).unit = 10 ^ places * 2 ^ (2 + shift) := by
  have exponent : (2 - -(shift : Int)).toNat = 2 + shift := by omega
  have power : (- -(places : Int)).toNat = places := by omega
  simp only [wholeReach, Reach.scale, Reach.ofDouble, exponent, power, Nat.pow_eq]
  exact Nat.mul_comm _ _

/-- The numerator of a whole number in its reach is the number, times the same power of two. -/
theorem value_wholeReach (magnitude shift places : Nat) :
    (wholeReach magnitude shift places).value = magnitude * 2 ^ (2 + shift) := by
  have exponent : (-(shift : Int) - 2).toNat = 0 := by omega
  have power : (-(places : Int)).toNat = 0 := by omega
  simp only [wholeReach, Reach.scale, Reach.ofDouble, exponent, power, Nat.pow_eq]
  ring

/-- Both ends are near, and on either side of the value. -/
theorem ends_wholeReach (positive : 0 < magnitude) (shift places : Nat) :
    let reach := wholeReach magnitude shift places
    reach.value < reach.low + 4 ∧ reach.low < reach.value ∧
      reach.value < reach.high ∧ reach.high < reach.value + 4 := by
  have exponent : (-(shift : Int) - 2).toNat = 0 := by omega
  have power : (-(places : Int)).toNat = 0 := by omega
  have mantissaPositive := Nat.mul_pos positive (Nat.two_pow_pos shift)
  simp only [wholeReach, Reach.scale, Reach.ofDouble, exponent, power, Nat.pow_eq, pow_zero,
    Nat.mul_one]
  split <;> omega

theorem mul_add_four_le
    {less more unit : Nat}
    (lt : less < more)
    (atLeast : 4 ≤ unit) :
    less * unit + 4 ≤ more * unit := by
  have next := Nat.mul_le_mul_right unit (Nat.succ_le_of_lt lt)
  rw [Nat.succ_mul] at next
  omega

/-- Of all whole multiples only the number itself is in its reach. -/
theorem holds_wholeReach (positive : 0 < magnitude) (shift places number : Nat) :
    (wholeReach magnitude shift places).holds number = decide (number * 10 ^ places = magnitude) := by
  obtain ⟨lowNear, low, high, highNear⟩ := ends_wholeReach positive shift places
  have value := value_wholeReach magnitude shift places
  have scaled : number * (wholeReach magnitude shift places).unit =
      number * 10 ^ places * 2 ^ (2 + shift) := by
    rw [unit_wholeReach, Nat.mul_assoc]
  have unitAtLeast : 4 ≤ 2 ^ (2 + shift) := by
    rw [pow_add]
    exact Nat.le_mul_of_pos_right 4 (Nat.two_pow_pos shift)
  simp only [Reach.holds, scaled]
  generalize wholeReach magnitude shift places = reach at *
  rw [Bool.eq_iff_iff]
  rcases Nat.lt_trichotomy (number * 10 ^ places) magnitude with less | same | greater
  · have apart := mul_add_four_le less unitAtLeast
    split <;> simp only [Bool.and_eq_true, decide_eq_true_eq] <;> omega
  · rw [same]
    split <;> simp only [Bool.and_eq_true, decide_eq_true_eq, decide_true, iff_true] <;> omega
  · have apart := mul_add_four_le greater unitAtLeast
    split <;> simp only [Bool.and_eq_true, decide_eq_true_eq] <;> omega

/-- The reach of a whole number has a multiple of the powers of ten that divide it. -/
theorem nearest?_whole (positive : 0 < magnitude) (shift places : Nat) :
    (wholeReach magnitude shift places).nearest? =
      if 10 ^ places ∣ magnitude then some (magnitude / 10 ^ places) else none := by
  have below : (wholeReach magnitude shift places).value / (wholeReach magnitude shift places).unit =
      magnitude / 10 ^ places := by
    rw [value_wholeReach, unit_wholeReach, Nat.mul_div_mul_right _ _ (Nat.two_pow_pos _)]
  have next : ¬(magnitude / 10 ^ places + 1) * 10 ^ places = magnitude := by
    have less : magnitude < magnitude / 10 ^ places * 10 ^ places + 10 ^ places :=
      Nat.lt_div_mul_add (Nat.pow_pos (by decide))
    rw [Nat.add_mul]
    omega
  simp only [Reach.nearest?, below, holds_wholeReach positive, next, decide_false]
  by_cases divides : 10 ^ places ∣ magnitude
  · rw [Nat.div_mul_cancel divides, if_pos divides]
    simp
  · have differs : ¬magnitude / 10 ^ places * 10 ^ places = magnitude := by
      rw [← Nat.dvd_iff_div_mul_eq]
      exact divides
    simp [differs, divides]

end Reach

section Shortest

variable {magnitude : Nat}

/-- For a whole number a power of ten is short enough just when it divides the number. -/
theorem shortestFrom_succ (positive : 0 < magnitude) (shift tries power : Nat) :
    shortestFrom (.ofDouble (magnitude * 2 ^ shift) (-shift)) (tries + 1) power =
      if 10 ^ power ∣ magnitude then ⟨magnitude / 10 ^ power, power⟩
      else shortestFrom (.ofDouble (magnitude * 2 ^ shift) (-shift)) tries (power - 1) := by
  have nearest := nearest?_whole positive shift power
  unfold wholeReach at nearest
  rw [shortestFrom, nearest]
  split <;> split <;> simp_all

/-- Powers of ten are tried downwards until one divides the number. -/
theorem shortestFrom_whole
    (positive : 0 < magnitude)
    (shift : Nat)
    {tries power : Nat}
    (enough : power < tries) :
    ∃ zeros : Nat, 10 ^ zeros ∣ magnitude ∧
      shortestFrom (.ofDouble (magnitude * 2 ^ shift) (-shift)) tries power =
        ⟨magnitude / 10 ^ zeros, zeros⟩ := by
  induction power generalizing tries with
  | zero =>
      obtain ⟨more, rfl⟩ := Nat.exists_eq_succ_of_ne_zero enough.ne'
      have divides : 10 ^ 0 ∣ magnitude := one_dvd magnitude
      exact ⟨0, divides, by rw [shortestFrom_succ positive, if_pos divides]⟩
  | succ power inductionHypothesis =>
      obtain ⟨more, rfl⟩ := Nat.exists_eq_succ_of_ne_zero (Nat.zero_lt_of_lt enough).ne'
      rw [shortestFrom_succ positive]
      by_cases divides : 10 ^ (power + 1) ∣ magnitude
      · exact ⟨power + 1, divides, if_pos divides⟩
      · have next : ((power + 1 : Nat) : Int) - 1 = power := by omega
        rw [if_neg divides, next]
        exact inductionHypothesis (by omega)

/-- The search for the shortest decimal of a whole number starts at a power below 24. -/
theorem greatestPower_whole
    (positive : 0 < magnitude)
    (bound : magnitude < 2 ^ 53)
    (shift : Nat) :
    ∃ power : Nat, power < 24 ∧ greatestPower (magnitude * 2 ^ shift) (-shift) = power := by
  have bits := log2_le_of_lt bound
  have logs := log2_mul_two_pow positive shift
  refine ⟨(greatestPower (magnitude * 2 ^ shift) (-shift)).toNat, ?_, ?_⟩
  · rw [greatestPower, logs]
    omega
  · rw [greatestPower, logs]
    omega

/-- Zeros at the end are digits like all others. -/
theorem toDigits_mul_ten_pow (positive : 0 < magnitude) (zeros : Nat) :
    Nat.toDigits 10 (magnitude * 10 ^ zeros) =
      Nat.toDigits 10 magnitude ++ List.replicate zeros '0' := by
  induction zeros with
  | zero => simp
  | succ zeros inductionHypothesis =>
      have tensPositive : 0 < magnitude * 10 ^ zeros := Nat.mul_pos positive (Nat.pow_pos (by decide))
      have last := Nat.toDigits_append_toDigits (by decide : 1 < 10) tensPositive (by decide : 0 < 10)
      rw [inductionHypothesis, Nat.toDigits_zero, List.append_assoc,
        ← List.replicate_succ'] at last
      rw [pow_succ', Nat.mul_left_comm, last, Nat.add_zero]

/-- A positive whole number is printed in decimal. -/
theorem decimal_whole
    (positive : 0 < magnitude)
    (bound : magnitude < 2 ^ 53)
    (shift : Nat) :
    printed.decimal (shortest (magnitude * 2 ^ shift) (-shift)) = magnitude.repr := by
  obtain ⟨power, powerLess, powerIs⟩ := greatestPower_whole positive bound shift
  obtain ⟨zeros, divides, found⟩ := shortestFrom_whole positive shift powerLess
  have quotientPositive : 0 < magnitude / 10 ^ zeros :=
    Nat.div_pos (Nat.le_of_dvd positive divides) (Nat.pow_pos (by decide))
  have digits := toDigits_mul_ten_pow quotientPositive zeros
  rw [Nat.div_mul_cancel divides] at digits
  have length : (Nat.toDigits 10 magnitude).length ≤ 16 :=
    (Nat.length_toDigits_le_iff (by decide) (by decide)).mpr (bound.trans (by decide))
  have lengths := congrArg List.length digits
  rw [List.length_append, List.length_replicate] at lengths
  have lengthPositive : 0 < (Nat.toDigits 10 (magnitude / 10 ^ zeros)).length :=
    Nat.length_toDigits_pos
  have isPlain : (decide (-6 ≤ Decimal.order ⟨magnitude / 10 ^ zeros, zeros⟩) &&
      decide (Decimal.order ⟨magnitude / 10 ^ zeros, zeros⟩ < 21)) = true := by
    have order : Decimal.order ⟨magnitude / 10 ^ zeros, zeros⟩ =
        zeros + (Nat.toDigits 10 (magnitude / 10 ^ zeros)).length - 1 := rfl
    rw [order, Bool.and_eq_true, decide_eq_true_eq, decide_eq_true_eq]
    omega
  rw [shortest, powerIs, found]
  simp only [Layout.decimal, printed, isPlain, if_true]
  simp only [Layout.plain, Decimal.digits, Bool.false_eq_true, if_false, String.append_empty,
    ← digits]
  exact Nat.repr_eq_ofList_toDigits.symm

end Shortest

/-- A whole number is printed in decimal, with its sign before it and zero without
one. -/
theorem write_whole
    {number : Float}
    {value : Int}
    (is : IsWhole number value) :
    printed.write number = toString value := by
  obtain ⟨sign, magnitude, bound, rfl, taken⟩ := is
  rw [Layout.write, taken]
  rcases Nat.eq_zero_or_pos magnitude with rfl | positive
  · cases sign <;> rfl
  · have bits := log2_le_of_lt bound
    have exponent : (magnitude.log2 : Int) - 52 = -((52 - magnitude.log2 : Nat) : Int) := by omega
    rw [whole_of_pos sign positive]
    simp only [exponent, decimal_whole positive bound]
    rw [Int.toString_eq_repr, Int.repr_eq_if]
    cases sign with
    | positive => simp [Sign.apply]
    | negative =>
        have negative : ¬(0 : Int) ≤ Sign.negative.apply magnitude := by
          simp only [Sign.apply]
          omega
        have opposite : (-Sign.negative.apply magnitude).toNat = magnitude := by
          simp only [Sign.apply]
          omega
        rw [if_neg negative, opposite]
        rfl

end Number
end Pictogram
