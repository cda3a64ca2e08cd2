import Pictogram.Number.Layout
import Pictogram.Syntax

/-!
# Values

A running program computes with null, booleans, double-precision numbers and
texts.  No value is ever turned into one of another kind.
-/

namespace Pictogram

/-- What an expression evaluates to. -/
inductive Value where
  | null
  | boolean (value : Bool)
  | number (value : Float)
  | string (text : String)

namespace Value

/-- The kinds of values. -/
inductive Kind where
  | null
  | boolean
  | number
  | string
  deriving DecidableEq, Repr

/-- The kind in words. -/
def Kind.describe : Kind → String
  | .null => "null"
  | .boolean => "boolean"
  | .number => "number"
  | .string => "string"

/-- The kind of a value. -/
def kind : Value → Kind
  | .null => .null
  | .boolean _ => .boolean
  | .number _ => .number
  | .string _ => .string

/-- The value that a literal stands for. -/
def ofLiteral : Literal → Value
  | .number value => .number value
  | .string text => .string text
  | .boolean value => .boolean value
  | .null => .null

/-- Whether the value is null. -/
def isNull : Value → Bool
  | .null => true
  | _ => false

/-- Whether a test with this value holds.  Null, false, zero, what is not a
number and the empty text do not hold. -/
def isTruthy : Value → Bool
  | .null => false
  | .boolean value => value
  | .number value => !value.isNaN && value != 0.0
  | .string text => !text.isEmpty

/-- The value as a program prints it. -/
def describe : Value → String
  | .null => "null"
  | .boolean true => "true"
  | .boolean false => "false"
  | .number value => Number.printed.write value
  | .string text => text

end Value

end Pictogram
