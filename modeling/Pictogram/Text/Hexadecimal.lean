/-!
# Hexadecimal text
-/

namespace Pictogram
namespace Text

/-- The value of a hexadecimal digit. -/
def hexValue? (digit : Char) : Option Nat :=
  if '0' ≤ digit && digit ≤ '9' then some (digit.toNat - '0'.toNat)
  else if 'a' ≤ digit && digit ≤ 'f' then some (digit.toNat - 'a'.toNat + 10)
  else if 'A' ≤ digit && digit ≤ 'F' then some (digit.toNat - 'A'.toNat + 10)
  else none

/-- The number that hexadecimal digits stand for. -/
def ofHexDigits? (digits : List Char) : Option Nat :=
  digits.foldlM (fun value digit => return 16 * value + (← hexValue? digit)) 0

end Text
end Pictogram
