import Pictogram.Compile.Error

/-!
# Texts in a class

A class holds a text as its UTF-16 code units, each of them in one, two or
three bytes.  The null character takes two bytes, so that no byte is zero.
-/

namespace Pictogram
namespace Class
namespace EncodedText

/-- The UTF-16 code units of a character. -/
def units (character : Char) : List Nat :=
  let code := character.toNat
  if code < 0x10000 then [code]
  else [0xD800 + (code - 0x10000) / 0x400, 0xDC00 + (code - 0x10000) % 0x400]

/-- The bytes of a code unit. -/
def unitBytes (unit : Nat) : List UInt8 :=
  if 0 < unit ∧ unit < 0x80 then [UInt8.ofNat unit]
  else if unit < 0x800 then [UInt8.ofNat (0xC0 + unit / 0x40), UInt8.ofNat (0x80 + unit % 0x40)]
  else
    [UInt8.ofNat (0xE0 + unit / 0x1000), UInt8.ofNat (0x80 + unit / 0x40 % 0x40),
      UInt8.ofNat (0x80 + unit % 0x40)]

/-- The bytes of a character. -/
def characterBytes (character : Char) : List UInt8 :=
  (units character).flatMap unitBytes

/-- The bytes of a text. -/
def encode (text : String) : List UInt8 :=
  text.toList.flatMap characterBytes

/-- The largest number of bytes that a text may take. -/
def sizeLimit : Nat := 65535

/-- The bytes of a text that is not too long. -/
def bytes (text : String) : Except Compile.Error (List UInt8) :=
  let encoded := encode text
  if encoded.length ≤ sizeLimit then .ok encoded else .error (.textTooLong encoded.length)

end EncodedText
end Class
end Pictogram
