/-!
# Reading a number

A number is written in decimal: an optional sign, digits with an optional
point, and an optional exponent; or it is one of the words for the infinities
and for no number, in any letter case.  The value is the double nearest to
what is written.
-/

namespace Pictogram
namespace Number

/-- The number that a run of decimal digits shows. -/
def ofDigits (digits : List Char) : Nat :=
  digits.foldl (fun value digit => value * 10 + (digit.toNat - '0'.toNat)) 0

/-- The largest decimal exponent that makes a difference: what is greater is
infinite, and what is as far below the coefficient is zero. -/
def exponentLimit : Nat := 400

/-- The double nearest to `coefficient * 10 ^ exponent`. -/
def nearest (coefficient : Nat) (exponent : Int) : Float :=
  if coefficient = 0 then 0.0
  else match exponent with
    | .ofNat places =>
      if exponentLimit < places then 1.0 / 0.0 else Float.ofScientific coefficient false places
    | .negSucc places =>
      if exponentLimit + coefficient.log2 < places then 0.0
      else Float.ofScientific coefficient true (places + 1)

/-- The number of digits that are read one by one.  A double, and the middle
between two of them, has fewer significant digits. -/
def digitLimit : Nat := 800

/-- Digits that round as the given ones do, and how many fewer they are.  Of the
digits beyond the limit it only matters whether one of them is not zero. -/
def condense (digits : List Char) : List Char × Nat :=
  let significant := digits.dropWhile (· = '0')
  let beyond := significant.drop digitLimit
  if beyond.isEmpty then (significant, 0)
  else
    let mark := if beyond.all (· = '0') then '0' else '1'
    (significant.take digitLimit ++ [mark], beyond.length - 1)

/-- The double nearest to what digits show, times a power of ten. -/
def nearestDigits (digits : List Char) (exponent : Int) : Float :=
  let (condensed, fewer) := condense digits
  nearest (ofDigits condensed) (exponent + fewer)

/-- The value of an exponent: an optional sign and at least one digit. -/
def readExponent : List Char → Option Int
  | '-' :: digits => if digits.isEmpty || !digits.all Char.isDigit then none else some (-ofDigits digits)
  | '+' :: digits => if digits.isEmpty || !digits.all Char.isDigit then none else some (ofDigits digits)
  | digits => if digits.isEmpty || !digits.all Char.isDigit then none else some (ofDigits digits)

/-- The digits after a point, if a point comes next, and what follows them. -/
def readFraction : List Char → List Char × List Char
  | '.' :: rest => (rest.takeWhile Char.isDigit, rest.dropWhile Char.isDigit)
  | rest => ([], rest)

/-- The value of an unsigned decimal with an optional exponent. -/
def readUnsigned (text : List Char) : Option Float :=
  let whole := text.takeWhile Char.isDigit
  let (fraction, rest) := readFraction (text.dropWhile Char.isDigit)
  let digits := whole ++ fraction
  if whole.isEmpty && fraction.isEmpty then none
  else match rest with
    | [] => some (nearestDigits digits (-fraction.length))
    | mark :: exponent =>
      if mark = 'e' || mark = 'E' then
        (readExponent exponent).map fun value =>
          nearestDigits digits (value - fraction.length)
      else none

/-- The value of a number without its sign, words included. -/
def readMagnitude (text : List Char) : Option Float :=
  match String.ofList (text.map Char.toLower) with
  | "inf" | "infinity" => some (1.0 / 0.0)
  | "nan" => some (0.0 / 0.0)
  | _ => readUnsigned text

/-- The value of a written number; nothing if the text is no number. -/
def read : List Char → Option Float
  | '-' :: magnitude => (readMagnitude magnitude).map Float.neg
  | '+' :: magnitude => readMagnitude magnitude
  | magnitude => readMagnitude magnitude

end Number
end Pictogram
