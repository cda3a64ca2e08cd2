import Pictogram.Evaluate.Error
import Pictogram.Number.Remainder

/-!
# Operations on values

Both operands of an operator have to be of the same kind: texts can be joined,
numbers calculated and compared, booleans compared and combined.
-/

namespace Pictogram
namespace Evaluate

/-- The operation on two numbers, if there is one. -/
def onNumbers (left right : Float) : BinaryOperator → Option Value
  | .add => some (.number (left + right))
  | .subtract => some (.number (left - right))
  | .multiply => some (.number (left * right))
  | .divide => some (.number (left / right))
  | .modulo => some (.number (Number.remainder left right))
  | .equal => some (.boolean (left == right))
  | .lessThan => some (.boolean (left < right))
  | .lessOrEqual => some (.boolean (left ≤ right))
  | .greaterThan => some (.boolean (right < left))
  | .greaterOrEqual => some (.boolean (right ≤ left))
  | .and | .or => none

/-- The operation on two booleans, if there is one. -/
def onBooleans (left right : Bool) : BinaryOperator → Option Value
  | .equal => some (.boolean (left == right))
  | .and => some (.boolean (left && right))
  | .or => some (.boolean (left || right))
  | _ => none

/-- The operation on two texts, if there is one. -/
def onTexts (left right : String) : BinaryOperator → Option Value
  | .add => some (.string (left ++ right))
  | _ => none

/-- The operation on two values, if there is one. -/
def operation? (operator : BinaryOperator) (left right : Value) : Option Value :=
  match left, right with
  | .number left, .number right => onNumbers left right operator
  | .boolean left, .boolean right => onBooleans left right operator
  | .string left, .string right => onTexts left right operator
  | _, _ => none

/-- The value of an operation at a position. -/
def operate
    (operator : BinaryOperator)
    (left right : Value)
    (position : Position) : Except Error Value :=
  match operation? operator left right with
  | some value => .ok value
  | none => .error ⟨.mismatch operator left.kind right.kind, some position⟩

/-- The negative of a value at a position. -/
def negated (operand : Value) (position : Position) : Except Error Value :=
  match operand with
  | .number value => .ok (.number (-value))
  | other => .error ⟨.notNegatable other.kind, some position⟩

end Evaluate
end Pictogram
