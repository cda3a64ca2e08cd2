import Pictogram.Number.Reading
import Pictogram.Proofs.Number.Rounding

/-!
# Decimals have a value

A decimal is a group of digits, or two groups with a point between them.  Each one is
read, and its value is a number: digits are rounded to a double, and what is rounded
is zero, finite or too large, but always a number.
-/

namespace Pictogram
namespace Number

open Float.Model (UnpackedFloat Format)
open Float.Model.UnpackedFloat

/-! ## Rounding gives a number -/

/-- Whether a number taken apart is finite and not zero. -/
def isNonzero : UnpackedFloat → Bool
  | .finite .. => true
  | .zero _ | .infinity _ | .notANumber => false

/-- Rounding gives a number. -/
theorem isNaN_roundWithAccuracy
    (spec : Format)
    (sign : Sign)
    (mantissa : Nat)
    (exponent : Int)
    (accuracy : Accuracy) :
    (roundWithAccuracy spec sign mantissa exponent accuracy).isNaN = false := by
  unfold roundWithAccuracy
  dsimp only
  split <;> rfl

/-- A number that is multiplied or divided by a finite one other than zero stays a number. -/
theorem isNaN_scaled
    {left right : UnpackedFloat}
    (spec : Format)
    (isNumber : left.isNaN = false)
    (nonzero : isNonzero right) :
    (mul spec left right).isNaN = false ∧ (div spec left right).isNaN = false := by
  cases right with
  | finite =>
      cases left with
      | infinity | zero => exact ⟨rfl, rfl⟩
      | notANumber => cases isNumber
      | finite => exact ⟨isNaN_roundWithAccuracy .., isNaN_roundWithAccuracy ..⟩
  | _ => cases nonzero

/-- Only bits with all ones for an exponent can stand for no number. -/
theorem isNaN_unpack_of_exponent
    {bits : BitVec 64}
    (exponent : @unpackExponent Format.binary64 bits ≠ -1#_) :
    (unpack Format.binary64 bits).isNaN = false := by
  unfold unpack
  dsimp only
  rw [if_neg exponent]
  split
  · split <;> rfl
  · rfl

/-- A number that is put together stays one, even if it is too large for a double. -/
theorem isNaN_unpack_pack
    {number : UnpackedFloat}
    (isNumber : number.isNaN = false) :
    (Float.Model.pack number).unpack.isNaN = false := by
  cases number with
  | infinity sign => rw [unpack_pack_infinity]; rfl
  | notANumber => cases isNumber
  | zero sign => rw [unpack_pack_zero]; rfl
  | finite sign mantissa exponent positive =>
      rw [unpack_pack, pack]
      dsimp only
      generalize (exponent + Format.binary64.exponentBias + (52 : Nat)).toNat = biased
      split
      · exact congrArg UnpackedFloat.isNaN (unpack_pack_infinity sign)
      · rename_i fits
        have small : biased + 1 < 2 ^ 11 := not_le.mp fits
        refine isNaN_unpack_of_exponent ?_
        split
        · rw [unpackExponent_packComponents]
          intro ones
          have value : biased % 2 ^ 11 = 2 ^ 11 - 1 := by simpa using congrArg BitVec.toNat ones
          omega
        · rw [unpackExponent_packComponents]
          decide

/-! ## Digits are rounded to a number -/

/-- Normalizing gives a number. -/
theorem isNaN_normalize
    (spec : Format)
    (mantissa exponent : Int)
    (sign : Sign) :
    (UnpackedFloat.normalize spec mantissa exponent sign).isNaN = false := by
  unfold UnpackedFloat.normalize
  split
  · exact isNaN_roundWithAccuracy ..
  · rfl
  · exact isNaN_roundWithAccuracy ..

/-- The powers of ten that a double holds are finite and not zero. -/
theorem isNonzero_powerOfTen :
    ∀ places : Fin Float.exactlyRepresentablePowersOfTen.size,
      isNonzero Float.exactlyRepresentablePowersOfTen[places].toModel.unpack := by
  decide +kernel

/-- A decimal with an exponent is a number, before it is put together. -/
theorem isNaN_unpacked_ofScientific (spec : Format) (coefficient : Nat) (exponent : Int) :
    (UnpackedFloat.ofScientific spec coefficient exponent).isNaN = false := by
  unfold UnpackedFloat.ofScientific
  split
  · rfl
  · split
    · rfl
    · split
      · rfl
      · split
        · exact (isNaN_scaled spec rfl rfl).1
        · exact (isNaN_scaled spec rfl rfl).2

/-- A decimal with an exponent is a number. -/
theorem isNaN_ofScientific (coefficient : Nat) (negative : Bool) (places : Nat) :
    (Float.ofScientific coefficient negative places).isNaN = false := by
  unfold Float.ofScientific
  split
  · -- Few digits are a whole number, which is scaled by an exact power of ten.
    rename_i small
    have isNumber : coefficient.toUInt64.toFloat.toModel.unpack.isNaN = false :=
      isNaN_unpack_pack (isNaN_normalize ..)
    have nonzero := isNonzero_powerOfTen ⟨places, Nat.lt_succ_iff.mpr small.2⟩
    obtain ⟨product, quotient⟩ := isNaN_scaled Format.binary64 isNumber nonzero
    dsimp only
    split
    · exact isNaN_unpack_pack quotient
    · exact isNaN_unpack_pack product
  · exact isNaN_unpack_pack (isNaN_unpacked_ofScientific ..)

/-- The double nearest to a decimal is a number. -/
theorem isNaN_nearest (coefficient : Nat) (exponent : Int) :
    (nearest coefficient exponent).isNaN = false := by
  unfold nearest
  split
  · rfl
  · split
    · split
      · rfl
      · exact isNaN_ofScientific ..
    · split
      · rfl
      · exact isNaN_ofScientific ..

/-! ## Reading a decimal -/

/-- A group of decimal digits, at least one. -/
structure IsDigits (text : List Char) : Prop where
  /-- There is a digit. -/
  nonempty : text ≠ []
  /-- There is nothing else. -/
  digits : ∀ character ∈ text, character.isDigit

/-- A group of digits, or two groups and the point between them. -/
inductive IsDecimal : List Char → Prop
  | whole {digits : List Char} :
      IsDigits digits →
      IsDecimal digits
  | fraction {whole fraction : List Char} :
      IsDigits whole →
      IsDigits fraction →
      IsDecimal (whole ++ '.' :: fraction)

/-- The digits at the front of a text are all taken, up to what is no digit. -/
theorem takeWhile_digits
    {digits : List Char}
    (areDigits : ∀ character ∈ digits, character.isDigit)
    (rest : List Char)
    (stops : ∀ next ∈ rest.head?, next = '.') :
    (digits ++ rest).takeWhile Char.isDigit = digits ∧
      (digits ++ rest).dropWhile Char.isDigit = rest := by
  rw [List.takeWhile_append_of_pos areDigits, List.dropWhile_append_of_pos areDigits]
  cases rest with
  | nil => simp
  | cons next others =>
      obtain rfl := stops next rfl
      simp

theorem toLower_digit {character : Char} (isDigit : character.isDigit) :
    character.toLower = character := by
  refine Char.toLower_eq_of_not_isUpper ?_
  have atMost : character.toNat ≤ 57 := (Char.isDigit_iff_toNat.mp isDigit).2
  intro isUpper
  have atLeast : 65 ≤ character.toNat := by
    simp only [Char.isUpper, decide_eq_true_eq] at isUpper
    exact UInt32.le_iff_toNat_le.mp isUpper.1
  omega

/-- A text that begins with a digit has no sign and is no word. -/
theorem read_of_digit
    {first : Char}
    (isDigit : first.isDigit)
    (rest : List Char) :
    read (first :: rest) = readUnsigned (first :: rest) := by
  have unsigned : read (first :: rest) = readMagnitude (first :: rest) := by
    unfold Number.read
    split
    · rename_i isMinus
      obtain ⟨rfl, -⟩ := List.cons.inj isMinus
      cases isDigit
    · rename_i isPlus
      obtain ⟨rfl, -⟩ := List.cons.inj isPlus
      cases isDigit
    · rfl
  have noWord (letter : Char) (others : List Char) (notDigit : letter.isDigit = false) :
      String.ofList ((first :: rest).map Char.toLower) ≠ String.ofList (letter :: others) := by
    intro same
    have letters := congrArg String.toList same
    rw [String.toList_ofList, String.toList_ofList, List.map_cons, toLower_digit isDigit] at letters
    obtain ⟨rfl, -⟩ := List.cons.inj letters
    rw [isDigit] at notDigit
    cases notDigit
  rw [unsigned]
  unfold readMagnitude
  split
  · rename_i isWord
    exact absurd isWord (noWord 'i' ['n', 'f'] rfl)
  · rename_i isWord
    exact absurd isWord (noWord 'i' ['n', 'f', 'i', 'n', 'i', 't', 'y'] rfl)
  · rename_i isWord
    exact absurd isWord (noWord 'n' ['a', 'n'] rfl)
  · rfl

/-- A group of digits is read as the double nearest to it. -/
theorem readUnsigned_whole {digits : List Char} (isDigits : IsDigits digits) :
    readUnsigned digits = some (nearestDigits digits 0) := by
  obtain ⟨taken, left⟩ := takeWhile_digits isDigits.digits [] (by simp)
  rw [List.append_nil] at taken left
  simp [readUnsigned, taken, left, readFraction, isDigits.nonempty]

/-- Two groups of digits with a point are read as the double nearest to them. -/
theorem readUnsigned_fraction
    {whole fraction : List Char}
    (isWhole : IsDigits whole)
    (isFraction : IsDigits fraction) :
    readUnsigned (whole ++ '.' :: fraction) =
      some (nearestDigits (whole ++ fraction) (-fraction.length)) := by
  obtain ⟨taken, left⟩ := takeWhile_digits isWhole.digits ('.' :: fraction) (by simp)
  have all := List.takeWhile_eq_self_iff.mpr isFraction.digits
  have none := List.dropWhile_eq_nil_iff.mpr isFraction.digits
  simp [readUnsigned, taken, left, readFraction, all, none, isWhole.nonempty]

/-- Every decimal has a value, which is a number. -/
theorem IsDecimal.read
    {text : List Char}
    (isDecimal : IsDecimal text) :
    ∃ value, Number.read text = some value ∧ value.isNaN = false := by
  cases isDecimal with
  | whole isDigits =>
      obtain ⟨first, rest, rfl⟩ := List.exists_cons_of_ne_nil isDigits.nonempty
      refine ⟨nearestDigits (first :: rest) 0, ?_, isNaN_nearest ..⟩
      rw [read_of_digit (isDigits.digits first List.mem_cons_self), readUnsigned_whole isDigits]
  | @fraction whole fraction isWhole isFraction =>
      obtain ⟨first, rest, rfl⟩ := List.exists_cons_of_ne_nil isWhole.nonempty
      refine ⟨nearestDigits (first :: rest ++ fraction) (-fraction.length), ?_, isNaN_nearest ..⟩
      rw [← readUnsigned_fraction isWhole isFraction]
      exact read_of_digit (isWhole.digits first List.mem_cons_self) _

end Number
end Pictogram
