import Pictogram.Value

/-!
# What goes wrong in a run

The first error ends a run.  It says what was attempted and, if that is known,
where in the source.
-/

namespace Pictogram
namespace Evaluate

/-- What was attempted in vain. -/
inductive Fault where
  /-- An operator on values that it does not combine. -/
  | mismatch (operator : BinaryOperator) (left right : Value.Kind)
  /-- The negative of something that is no number. -/
  | notNegatable (found : Value.Kind)
  /-- The use of a variable that is not bound. -/
  | undeclared (name : String)
  /-- The declaration of a variable that is bound. -/
  | redeclared (name : String)
  /-- A counted loop over something that is no number. -/
  | rangeNotNumeric (found : Value.Kind)
  deriving DecidableEq, Repr

/-- The fault in words. -/
def Fault.describe : Fault → String
  | .mismatch operator left right =>
    s!"cannot apply {operator.symbol} to {left.describe} and {right.describe}"
  | .notNegatable found => s!"cannot negate a {found.describe}"
  | .undeclared name => s!"variable {name} is not declared"
  | .redeclared name => s!"variable {name} is already declared"
  | .rangeNotNumeric found => s!"loop bounds must be numbers, found {found.describe}"

/-- The name of the fault. -/
def Fault.label : Fault → String
  | .mismatch .. => "TypeMismatch"
  | .notNegatable _ => "UnaryOperand"
  | .undeclared _ => "UndefinedVariable"
  | .redeclared _ => "AlreadyDeclared"
  | .rangeNotNumeric _ => "NonNumericRange"

/-- A fault and where it happened. -/
structure Error where
  /-- What was attempted in vain. -/
  fault : Fault
  /-- Where in the source. -/
  position : Option Position
  deriving DecidableEq, Repr

/-- The line that reports the error. -/
def Error.message (error : Error) : String :=
  let place := match error.position with
    | some position => s!"{position.describe}: "
    | none => ""
  s!"[runtime error] {place}{error.fault.describe}"

end Evaluate
end Pictogram
