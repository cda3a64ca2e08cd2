import Pictogram.Number.Reading
import Pictogram.Toml.Text
import Pictogram.Toml.Value

/-!
# Numbers, dates and times of a TOML document
-/

namespace Pictogram
namespace Toml

/-- Digits with single underscores between them; the underscores are left out
of what is read.  `done` holds the digits read, the last one first. -/
def digitsFrom (isDigit : Char → Bool) : (done : List Char) → Reader (List Char)
  | done, '_' :: next :: rest =>
    if isDigit next && !done.isEmpty then digitsFrom isDigit (next :: done) rest else none
  | done, next :: rest =>
    if isDigit next then digitsFrom isDigit (next :: done) rest
    else if next = '_' || done.isEmpty then none
    else some (done.reverse, next :: rest)
  | done, [] => if done.isEmpty then none else some (done.reverse, [])

/-- Digits with single underscores between them. -/
def digits (isDigit : Char → Bool) : Reader (List Char) := digitsFrom isDigit []

/-- A sign and what follows it. -/
def sign : List Char → List Char × List Char
  | '+' :: rest => (['+'], rest)
  | '-' :: rest => (['-'], rest)
  | text => ([], text)

/-- The digits of a decimal number without its sign.  A zero in front stands
alone. -/
def decimalDigits : Reader (List Char)
  | '0' :: rest => some (['0'], rest)
  | text => digits Char.isDigit text

/-- The integer, if it fits in 64 bits with a sign. -/
def integer64? (value : Int) : Option Value :=
  if Int64.minValue.toInt ≤ value ∧ value ≤ Int64.maxValue.toInt then some (.integer value)
  else none

/-- An integer in another base after its mark. -/
def based (isDigit : Char → Bool) (base : Nat) : Reader Value := fun text => do
  let (found, rest) ← digits isDigit text
  let value := found.foldl (fun value digit => base * value + (Text.hexValue? digit).getD 0) 0
  return (← integer64? value, rest)

/-- A decimal integer. -/
def decimalInteger : Reader Value := fun text => do
  let (sign, rest) := sign text
  let (found, rest) ← decimalDigits rest
  let magnitude : Int := Number.ofDigits found
  return (← integer64? (if sign = ['-'] then -magnitude else magnitude), rest)

/-- An integer. -/
def integer : Reader Value
  | '0' :: 'x' :: rest => based (fun digit => (Text.hexValue? digit).isSome) 16 rest
  | '0' :: 'o' :: rest => based (fun digit => '0' ≤ digit && digit ≤ '7') 8 rest
  | '0' :: 'b' :: rest => based (fun digit => digit = '0' || digit = '1') 2 rest
  | text => decimalInteger text

/-- The characters of an exponent. -/
def exponent : Reader (List Char) := fun text =>
  match text with
  | mark :: rest =>
    if mark = 'e' || mark = 'E' then do
      let (sign, rest) := sign rest
      let (found, rest) ← digits Char.isDigit rest
      return ('e' :: sign ++ found, rest)
    else none
  | [] => none

/-- The characters of a fraction, which an exponent may follow. -/
def fraction : Reader (List Char)
  | '.' :: rest => do
    let (found, rest) ← digits Char.isDigit rest
    match exponent rest with
    | some (power, rest) => return ('.' :: found ++ power, rest)
    | none => return ('.' :: found, rest)
  | _ => none

/-- A number with a fraction or an exponent, or an infinity, or no number. -/
def float : Reader Value := fun text =>
  let (sign, rest) := sign text
  match rest with
  | 'i' :: 'n' :: 'f' :: rest => some (.float (1.0 / 0.0), rest)
  | 'n' :: 'a' :: 'n' :: rest => some (.float (0.0 / 0.0), rest)
  | _ => do
    let (whole, rest) ← decimalDigits rest
    let (tail, rest) ← (fraction rest).or (exponent rest)
    let value ← Number.read (sign ++ whole ++ tail)
    if value == 1.0 / 0.0 then none else some (.float value, rest)

/-- A number of exactly so many digits, within bounds. -/
def field (width least greatest : Nat) : Reader Nat := fun text =>
  let found := text.take width
  let value := Number.ofDigits found
  if found.length = width && found.all Char.isDigit && least ≤ value && value ≤ greatest then
    some (value, text.drop width)
  else none

/-- The text after a given character. -/
def after (expected : Char) : List Char → Option (List Char)
  | character :: rest => if character = expected then some rest else none
  | [] => none

/-- The number of days of a month. -/
def daysOf (year month : Nat) : Nat :=
  if month = 2 then
    if year % 4 = 0 && (year % 100 ≠ 0 || year % 400 = 0) then 29 else 28
  else if month = 4 || month = 6 || month = 9 || month = 11 then 30 else 31

/-- The text after a date. -/
def date (text : List Char) : Option (List Char) := do
  let (year, rest) ← field 4 0 9999 text
  let (month, rest) ← field 2 1 12 (← after '-' rest)
  let (_, rest) ← field 2 1 (daysOf year month) (← after '-' rest)
  return rest

/-- The text after a time. -/
def time (text : List Char) : Option (List Char) := do
  let (_, rest) ← field 2 0 23 text
  let (_, rest) ← field 2 0 59 (← after ':' rest)
  let (_, rest) ← field 2 0 60 (← after ':' rest)
  match rest with
  | '.' :: digits =>
    if (digits.takeWhile Char.isDigit).isEmpty then none
    else return digits.dropWhile Char.isDigit
  | rest => return rest

/-- The text after the offset of a time, if there is one. -/
def offset : List Char → Option (List Char)
  | 'Z' :: rest | 'z' :: rest => some rest
  | '+' :: rest | '-' :: rest => do
    let (_, rest) ← field 2 0 23 rest
    let (_, rest) ← field 2 0 59 (← after ':' rest)
    return rest
  | text => some text

/-- The text after a time that follows a date, if there is one. -/
def timeOfDay (text : List Char) : Option (List Char) :=
  match text with
  | 'T' :: rest | 't' :: rest => do offset (← time rest)
  | ' ' :: rest =>
    match time rest with
    | some rest => offset rest
    | none => some text
  | _ => some text

/-- A date, a time, or both. -/
def moment : Reader Value := fun text => do
  let rest ← (do timeOfDay (← date text)).or (time text)
  return (.moment (String.ofList (text.take (text.length - rest.length))), rest)

/-- A number, a date or a time. -/
def number : Reader Value := fun text =>
  ((moment text).or (float text)).or (integer text)

end Toml
end Pictogram
