import Pictogram.Position
import Pictogram.Token.Kind

/-!
# Syntax trees

A program is a list of statements.  Names, literals, negations and binary
operations carry the position that messages about them give; an assignment is
where its target is.
-/

namespace Pictogram

/-- A variable's name where it stands. -/
structure Identifier where
  /-- The name. -/
  name : String
  /-- Where it stands. -/
  position : Position
  deriving DecidableEq, Repr

/-- A value written out. -/
inductive Literal where
  | number (value : Float)
  | string (text : String)
  | boolean (value : Bool)
  | null

/-- An operation on two values. -/
inductive BinaryOperator where
  | add
  | subtract
  | multiply
  | divide
  | modulo
  | equal
  | lessThan
  | lessOrEqual
  | greaterThan
  | greaterOrEqual
  | and
  | or
  deriving DecidableEq, Repr

namespace BinaryOperator

/-- The token that stands for the operator. -/
def token : BinaryOperator → Token.Kind
  | .add => .plus
  | .subtract => .minus
  | .multiply => .star
  | .divide => .slash
  | .modulo => .percent
  | .equal => .equal
  | .lessThan => .lessThan
  | .lessOrEqual => .lessOrEqual
  | .greaterThan => .greaterThan
  | .greaterOrEqual => .greaterOrEqual
  | .and => .and
  | .or => .or

/-- The symbol of the operator. -/
def symbol (operator : BinaryOperator) : String :=
  operator.token.describe

/-- Whether the operator compares by order. -/
def isComparison : BinaryOperator → Bool
  | .lessThan | .lessOrEqual | .greaterThan | .greaterOrEqual => true
  | _ => false

/-- The name of the operator in a syntax tree. -/
def label : BinaryOperator → String
  | .add => "Add"
  | .subtract => "Subtract"
  | .multiply => "Multiply"
  | .divide => "Divide"
  | .modulo => "Modulo"
  | .equal => "Equal"
  | .lessThan => "LessThan"
  | .lessOrEqual => "LessThanEqual"
  | .greaterThan => "GreaterThan"
  | .greaterOrEqual => "GreaterThanEqual"
  | .and => "LogicalAnd"
  | .or => "LogicalOr"

end BinaryOperator

/-- Something that has a value. -/
inductive Expression where
  /-- A value written out. -/
  | literal (value : Literal) (position : Position)
  /-- The value of a variable. -/
  | name (id : Identifier)
  /-- The negative of a value. -/
  | negate (argument : Expression) (position : Position)
  /-- An operation on two values, at the position of its symbol. -/
  | binary (operator : BinaryOperator) (left right : Expression) (position : Position)
  /-- The value given to a variable. -/
  | assign (target : Identifier) (value : Expression)

/-- Where an expression stands. -/
def Expression.position : Expression → Position
  | .literal _ position => position
  | .name id => id.position
  | .negate _ position => position
  | .binary _ _ _ position => position
  | .assign target _ => target.position

mutual

/-- Something to be done. -/
inductive Statement where
  /-- Print a value. -/
  | print (argument : Expression) (position : Position)
  /-- Declare a variable, with a first value or none. -/
  | declare (id : Identifier) (init : Option Expression)
  /-- Run the first clause whose test holds, or else the alternate. -/
  | conditional
    (test : Expression)
    (body : List Statement)
    (elseIfs : List Clause)
    (alternate : List Statement)
  /-- Run the body while the counter goes from `start` up to `stop`. -/
  | count (counter : Identifier) (start stop : Expression) (body : List Statement)
  /-- Run the body while the test holds. -/
  | loop (test : Expression) (body : List Statement)
  /-- Evaluate an expression for its effect. -/
  | evaluate (expression : Expression)

/-- A further test of a conditional, with what to do if it holds. -/
inductive Clause where
  | mk (test : Expression) (body : List Statement)

end

/-- A whole program. -/
abbrev Program := List Statement

end Pictogram
