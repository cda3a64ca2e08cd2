import Pictogram.Class.EncodedText
import Mathlib.Data.List.Basic

/-!
# Reading the texts of a class

The bytes of a text are read as UTF-16 code units, and these as characters.  A
byte that begins no code unit, or does not go on with one, is refused, and so is
a surrogate that stands alone.  `decode?_encode` says that every text is read
back from its bytes.  How many these are is known from the characters, and but for
the null and for characters beyond the first plane they are the bytes of UTF-8.
-/

namespace Pictogram
namespace Class
namespace EncodedText

/-- Whether a byte goes on with a code unit. -/
def goesOn (byte : UInt8) : Bool := 0x80 ≤ byte.toNat ∧ byte.toNat < 0xC0

/-- The code units that bytes stand for. -/
def units? : List UInt8 → Option (List Nat)
  | [] => some []
  | first :: rest =>
    if 0 < first.toNat ∧ first.toNat < 0x80 then (units? rest).map (first.toNat :: ·)
    else match rest with
      | [] => none
      | second :: rest =>
        if 0xC0 ≤ first.toNat ∧ first.toNat < 0xE0 ∧ goesOn second then
          let unit := first.toNat % 0x20 * 0x40 + second.toNat % 0x40
          (units? rest).map (unit :: ·)
        else match rest with
          | [] => none
          | third :: rest =>
            if 0xE0 ≤ first.toNat ∧ first.toNat < 0xF0 ∧ goesOn second ∧ goesOn third then
              let unit :=
                first.toNat % 0x10 * 0x1000 + second.toNat % 0x40 * 0x40 + third.toNat % 0x40
              (units? rest).map (unit :: ·)
            else none

/-- The characters that code units stand for. -/
def characters? : List Nat → Option (List Char)
  | [] => some []
  | first :: rest =>
    if first < 0xD800 ∨ 0xE000 ≤ first then (characters? rest).map (Char.ofNat first :: ·)
    else match rest with
      | [] => none
      | second :: rest =>
        if first < 0xDC00 ∧ 0xDC00 ≤ second ∧ second < 0xE000 then
          let code := 0x10000 + (first - 0xD800) * 0x400 + (second - 0xDC00)
          (characters? rest).map (Char.ofNat code :: ·)
        else none

/-- The text that bytes stand for. -/
def decode? (bytes : List UInt8) : Option String := do
  let characters ← characters? (← units? bytes)
  return String.ofList characters

/-- The bytes of a unit are read back as that unit, whatever follows them. -/
theorem units?_unitBytes
    {unit : Nat}
    (small : unit < 0x10000)
    (rest : List UInt8) :
    units? (unitBytes unit ++ rest) = (units? rest).map (unit :: ·) := by
  -- One byte, two bytes, or three: the reader tells them apart by the first.
  unfold unitBytes
  split
  · rename_i one
    have same : unit % 2 ^ 8 = unit := by omega
    rw [List.cons_append, List.nil_append, units?.eq_def]
    simp only [UInt8.toNat_ofNat']
    rw [if_pos (by omega), same]
  · split
    · have same : (0xC0 + unit / 0x40) % 2 ^ 8 % 0x20 * 0x40 +
          (0x80 + unit % 0x40) % 2 ^ 8 % 0x40 = unit := by omega
      rw [List.cons_append, List.cons_append, List.nil_append, units?.eq_def]
      simp only [UInt8.toNat_ofNat', goesOn, decide_eq_true_eq]
      rw [if_neg (by omega), if_pos (by omega), same]
    · have same : (0xE0 + unit / 0x1000) % 2 ^ 8 % 0x10 * 0x1000 +
          (0x80 + unit / 0x40 % 0x40) % 2 ^ 8 % 0x40 * 0x40 +
          (0x80 + unit % 0x40) % 2 ^ 8 % 0x40 = unit := by omega
      rw [List.cons_append, List.cons_append, List.cons_append, List.nil_append, units?.eq_def]
      simp only [UInt8.toNat_ofNat', goesOn, decide_eq_true_eq]
      rw [if_neg (by omega), if_neg (by omega), if_pos (by omega), same]

/-- The bytes of units in a row are read back as these units. -/
theorem units?_flatMap
    {units : List Nat}
    (small : ∀ unit ∈ units, unit < 0x10000) :
    units? (units.flatMap unitBytes) = some units := by
  induction units with
  | nil => rfl
  | cons unit rest inductionHypothesis =>
      obtain ⟨first, others⟩ := List.forall_mem_cons.mp small
      rw [List.flatMap_cons, units?_unitBytes first, inductionHypothesis others, Option.map_some]

/-- A character is a code point that is no surrogate. -/
theorem toNat_valid (character : Char) :
    character.toNat < 0xD800 ∨ 0xDFFF < character.toNat ∧ character.toNat < 0x110000 :=
  character.valid

/-- The units of a character have 16 bits. -/
theorem units_lt (character : Char) : ∀ unit ∈ units character, unit < 0x10000 := by
  intro unit present
  have valid := toNat_valid character
  simp only [units] at present
  split at present
  · obtain rfl := List.mem_singleton.mp present
    omega
  · simp only [List.mem_cons, List.not_mem_nil, or_false] at present
    omega

/-- The units of a character are read back as that character, whatever follows them. -/
theorem characters?_units (character : Char) (rest : List Nat) :
    characters? (units character ++ rest) = (characters? rest).map (character :: ·) := by
  have valid := toNat_valid character
  simp only [units]
  split
  · rw [List.cons_append, List.nil_append, characters?.eq_def]
    dsimp only
    rw [if_pos (by omega), Char.ofNat_toNat]
  · -- A character beyond the first plane is a pair of surrogates.
    have joined : 0x10000 + (0xD800 + (character.toNat - 0x10000) / 0x400 - 0xD800) * 0x400 +
        (0xDC00 + (character.toNat - 0x10000) % 0x400 - 0xDC00) = character.toNat := by omega
    rw [List.cons_append, List.cons_append, List.nil_append, characters?.eq_def]
    dsimp only
    rw [if_neg (by omega), if_pos (by omega), joined, Char.ofNat_toNat]

/-- The units of characters in a row are read back as these characters. -/
theorem characters?_flatMap (characters : List Char) :
    characters? (characters.flatMap units) = some characters := by
  induction characters with
  | nil => rfl
  | cons character rest inductionHypothesis =>
      rw [List.flatMap_cons, characters?_units, inductionHypothesis, Option.map_some]

/-- Every text is read back from its bytes. -/
theorem decode?_encode (text : String) : decode? (encode text) = some text := by
  have asUnits : encode text = (text.toList.flatMap units).flatMap unitBytes := by
    rw [List.flatMap_assoc]
    rfl
  have small : ∀ unit ∈ text.toList.flatMap units, unit < 0x10000 := by
    intro unit present
    obtain ⟨character, -, inside⟩ := List.mem_flatMap.mp present
    exact units_lt character unit inside
  simp [decode?, asUnits, units?_flatMap small, characters?_flatMap]

/-! ## What the bytes are -/

/-- The number of bytes of a character. -/
def characterSize (character : Char) : Nat :=
  let code := character.toNat
  if code = 0 then 2
  else if code < 0x80 then 1
  else if code < 0x800 then 2
  else if code < 0x10000 then 3
  else 6

/-- The number of bytes of a text. -/
def size (text : String) : Nat :=
  text.toList.foldr (fun character rest => characterSize character + rest) 0

/-- A unit takes one byte if it is not zero and has 7 bits, two bytes up to 11 bits, and three
otherwise. -/
theorem length_unitBytes (unit : Nat) :
    (unitBytes unit).length =
      if 0 < unit ∧ unit < 0x80 then 1 else if unit < 0x800 then 2 else 3 := by
  unfold unitBytes
  split
  · rfl
  · split <;> rfl

theorem length_characterBytes (character : Char) :
    (characterBytes character).length = characterSize character := by
  have valid := toNat_valid character
  simp only [characterBytes, characterSize, units]
  split
  · simp only [List.flatMap_singleton, length_unitBytes]
    split_ifs <;> omega
  · -- Both surrogates take three bytes.
    simp only [List.flatMap_cons, List.flatMap_nil, List.length_append, length_unitBytes,
      List.length_nil]
    split_ifs <;> omega

/-- The number of bytes of a text is the sum over its characters. -/
theorem length_encode (text : String) : (encode text).length = size text := by
  simp only [encode, size, List.length_flatMap, length_characterBytes, List.sum, List.foldr_map]

/-- No code unit has a byte that is zero, or one that begins a character of four bytes. -/
theorem unitBytes_range
    {unit : Nat}
    (small : unit < 0x10000) :
    ∀ byte ∈ unitBytes unit, byte ≠ 0x00 ∧ byte < 0xF0 := by
  have inRange {value : Nat} (positive : 0 < value) (below : value < 0xF0) :
      UInt8.ofNat value ≠ 0x00 ∧ UInt8.ofNat value < 0xF0 := by
    have fits : value < UInt8.size := by show value < 256; omega
    rw [Ne, ← UInt8.toNat_inj, UInt8.lt_iff_toNat_lt, UInt8.toNat_ofNat_of_lt' fits]
    exact ⟨Nat.ne_of_gt positive, below⟩
  intro byte present
  unfold unitBytes at present
  split at present
  · obtain rfl := List.mem_singleton.mp present
    exact inRange (by omega) (by omega)
  · split at present
    · rcases List.mem_pair.mp present with rfl | rfl <;> exact inRange (by omega) (by omega)
    · rcases List.mem_cons.mp present with rfl | later
      · exact inRange (by omega) (by omega)
      · rcases List.mem_pair.mp later with rfl | rfl <;> exact inRange (by omega) (by omega)

/-- No byte of an encoded text is zero, and none begins a sequence of four bytes. -/
theorem encode_range (text : String) : ∀ byte ∈ encode text, byte ≠ 0x00 ∧ byte < 0xF0 := by
  intro byte present
  obtain ⟨character, -, inCharacter⟩ := List.mem_flatMap.mp present
  obtain ⟨unit, isUnit, inUnit⟩ := List.mem_flatMap.mp inCharacter
  exact unitBytes_range (units_lt character unit isUnit) byte inUnit

/-- Only the null character and the characters beyond the first plane are written in a way of
their own. -/
theorem characterBytes_eq_utf8EncodeChar
    {character : Char}
    (notNull : character ≠ '\x00')
    (firstPlane : character.toNat < 0x10000) :
    characterBytes character = String.utf8EncodeChar character := by
  have positive : 0 < character.toNat :=
    Nat.pos_of_ne_zero fun zero => notNull (Char.toNat_inj.mp zero)
  have code : character.val.toNat = character.toNat := rfl
  simp only [characterBytes, units, if_pos firstPlane, List.flatMap_singleton, unitBytes,
    String.utf8EncodeChar, code]
  by_cases one : character.toNat < 0x80
  · have oneByte : character.toNat ≤ 127 := by omega
    rw [if_pos ⟨positive, one⟩, if_pos oneByte]
  · have notOne : ¬(0 < character.toNat ∧ character.toNat < 0x80) := by omega
    have notOneByte : ¬character.toNat ≤ 127 := by omega
    rw [if_neg notOne, if_neg notOneByte]
    by_cases two : character.toNat < 0x800
    · have twoBytes : character.toNat ≤ 2047 := by omega
      have lead : character.toNat / 64 % 32 + 192 = 0xC0 + character.toNat / 0x40 := by omega
      rw [if_pos two, if_pos twoBytes, lead, Nat.add_comm 0x80]
    · have notTwoBytes : ¬character.toNat ≤ 2047 := by omega
      have threeBytes : character.toNat ≤ 65535 := by omega
      have lead : character.toNat / 4096 % 16 + 224 = 0xE0 + character.toNat / 0x1000 := by omega
      rw [if_neg two, if_neg notTwoBytes, if_pos threeBytes, lead, Nat.add_comm 0x80,
        Nat.add_comm 0x80]

/-- A text without the zero character and without characters beyond the basic plane is encoded as in
UTF-8. -/
theorem encode_eq_toUTF8
    {text : String}
    (plain : ∀ character ∈ text.toList, character ≠ '\x00' ∧ character.toNat < 0x10000) :
    encode text = text.toUTF8.data.toList := by
  have ordinary : text.toUTF8.data.toList = text.toList.flatMap String.utf8EncodeChar := by
    conv => lhs; rw [← String.ofList_toList (s := text)]
    rw [String.toUTF8_eq_toByteArray, String.toByteArray_ofList, List.utf8Encode,
      List.toList_data_toByteArray]
  rw [ordinary, encode]
  refine List.flatMap_congr fun character present => ?_
  exact characterBytes_eq_utf8EncodeChar (plain character present).1 (plain character present).2

/-- What the bytes of a text are. -/
structure Encodes (text : String) (encoded : List UInt8) : Prop where
  /-- They are as many as the characters take. -/
  length_eq : encoded.length = size text
  /-- The text is read back from them. -/
  decode?_eq : decode? encoded = some text
  /-- None is zero, and none is from 0xF0 on. -/
  range : ∀ byte ∈ encoded, byte ≠ 0x00 ∧ byte < 0xF0
  /-- They are those of UTF-8, unless the text has a null or a character beyond the first plane. -/
  eq_toUTF8 : (∀ character ∈ text.toList, character ≠ '\x00' ∧ character.toNat ≤ 0xFFFF) →
    encoded = text.toUTF8.data.toList

/-- The encoding of a text has all properties of an encoding. -/
theorem encodes_encode (text : String) : Encodes text (encode text) where
  length_eq := length_encode text
  decode?_eq := decode?_encode text
  range := encode_range text
  eq_toUTF8 plain := encode_eq_toUTF8 fun character present =>
    ⟨(plain character present).1, Nat.lt_succ_of_le (plain character present).2⟩

example : encode "a\x00😀" = [0x61, 0xC0, 0x80, 0xED, 0xA0, 0xBD, 0xED, 0xB8, 0x80] := by decide

/-- A text is refused, with the number of its bytes, exactly when there are more than 65535 of
them.  Otherwise it is written as bytes that encode it, and no other text is written so. -/
theorem refused_or_encodes (text : String) :
    (65535 < size text ∧ bytes text = .error (.textTooLong (size text))) ∨
    (size text ≤ 65535 ∧ ∃ encoded, bytes text = .ok encoded ∧ Encodes text encoded ∧
      ∀ other, bytes other = .ok encoded → other = text) := by
  by_cases long : sizeLimit < size text
  · left
    refine ⟨long, ?_⟩
    simp [bytes, length_encode, Nat.not_le_of_lt long]
  · right
    refine ⟨Nat.le_of_not_lt long, encode text, ?_, encodes_encode text, ?_⟩
    · simp [bytes, length_encode, Nat.le_of_not_lt long]
    · intro other same
      have otherBytes : encode other = encode text := by
        simp only [bytes] at same
        split at same
        · exact Except.ok.inj same
        · cases same
      have back := congrArg decode? otherBytes
      rw [decode?_encode, decode?_encode] at back
      exact Option.some.inj back

theorem refused_or_encodes_plain : bytes "é偶" = .ok [0xC3, 0xA9, 0xE5, 0x81, 0xB6] := by
  have plain : ∀ character ∈ "é偶".toList, character ≠ '\x00' ∧ character.toNat ≤ 0xFFFF := by
    rw [show "é偶".toList = ['é', '偶'] from rfl]
    simp only [List.forall_mem_cons, List.not_mem_nil, false_implies, implies_true, and_true]
    decide
  have ordinary : "é偶".toUTF8.data.toList = [0xC3, 0xA9, 0xE5, 0x81, 0xB6] := by decide
  rcases refused_or_encodes "é偶" with ⟨long, -⟩ | ⟨-, encoded, written, encodes, -⟩
  · exact absurd long (by decide)
  · rw [written, encodes.eq_toUTF8 plain, ordinary]

end EncodedText
end Class
end Pictogram
