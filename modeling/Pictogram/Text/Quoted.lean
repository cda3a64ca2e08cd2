import Pictogram.Text.BreakTable
import Pictogram.Text.GlyphTable
import Pictogram.Text.Hexadecimal

/-!
# Quoted texts

A text between quotation marks, in which everything that cannot be seen for
itself is written out: quotation marks and backslashes, line ends, and, by
number, what has no glyph or extends the cluster before it.
-/

namespace Pictogram
namespace Text

/-- Whether a character changes the tone of a picture. -/
def isToneModifier (character : Char) : Bool :=
  0x1F3FB ≤ character.toNat && character.toNat ≤ 0x1F3FF

/-- Whether a quoted text writes a character by its number. -/
def isNumbered (character : Char) : Bool :=
  GlyphTable.glyphless.contains character.toNat ||
    (BreakTable.extending.contains character.toNat && !isToneModifier character)

/-- A character of a quoted text. -/
def quotedCharacter (character : Char) : String :=
  match character with
  | '\x00' => "\\0"
  | '\t' => "\\t"
  | '\r' => "\\r"
  | '\n' => "\\n"
  | '"' => "\\\""
  | '\\' => "\\\\"
  | character =>
    if isNumbered character then
      "\\u\x7b" ++ String.ofList (Nat.toDigits 16 character.toNat) ++ "\x7d"
    else character.toString

/-- A text between quotation marks. -/
def quoted (text : String) : String :=
  "\"" ++ String.join (text.toList.map quotedCharacter) ++ "\""

end Text
end Pictogram
