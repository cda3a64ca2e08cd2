import Pictogram.Number.Reading

/-!
# The value of a number token

A number token may hold any number of points.  Its value is that of its
longest beginning that is a decimal: up to the second point, and without
points at its end.
-/

namespace Pictogram
namespace Parse

/-- The text before the point after which `points` more points would follow. -/
def beforePoint (points : Nat) : List Char → List Char
  | [] => []
  | c :: rest =>
    if c = '.' then
      match points with
      | 0 => []
      | left + 1 => c :: beforePoint left rest
    else c :: beforePoint points rest

/-- The text without the points it ends in. -/
def dropFinalPoints (text : List Char) : List Char :=
  (text.reverse.dropWhile (· = '.')).reverse

/-- The part of a number token's text that is read as a decimal. -/
def decimalPart (text : List Char) : List Char :=
  dropFinalPoints (beforePoint 1 text)

/-- The value of a number token's text, which is no number if its decimal part
is none. -/
def numberValue (text : String) : Float :=
  (Number.read (decimalPart text.toList)).getD (0.0 / 0.0)

end Parse
end Pictogram
