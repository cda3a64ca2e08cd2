import Pictogram.Position
import Pictogram.Token.Kind

/-!
# Why a token list is no program

A parse fails at one token.  The error says where that token stands, which
construct was being read, and what was missing.
-/

namespace Pictogram
namespace Parse

/-- What was being read. -/
inductive Construct where
  | printStatement
  | declaration
  | ifStatement
  | forStatement
  | whileStatement
  | expressionStatement
  deriving DecidableEq, Repr

/-- The construct in words. -/
def Construct.describe : Construct → String
  | .printStatement => "print statement"
  | .declaration => "declaration"
  | .ifStatement => "if statement"
  | .forStatement => "for statement"
  | .whileStatement => "while statement"
  | .expressionStatement => "expression statement"

/-- The part of a construct after which something is missing. -/
inductive Part where
  | printedValue
  | initializer
  | variableName
  | expression
  | loopVariable
  | startValue
  | endValue
  | condition
  | elseIfCondition
  | elseWord
  deriving DecidableEq, Repr

/-- The part in words. -/
def Part.describe : Part → String
  | .printedValue => "the printed value"
  | .initializer => "the initializer"
  | .variableName => "the variable name"
  | .expression => "the expression"
  | .loopVariable => "the loop variable"
  | .startValue => "the start value"
  | .endValue => "the end value"
  | .condition => "the condition"
  | .elseIfCondition => "the else-if condition"
  | .elseWord => Token.Kind.describe .elseWord

/-- What is wrong at a token. -/
inductive Fault where
  /-- Another token than the one that has to follow a part. -/
  | missing (expected : Token.Kind) (after : Part) (found : Token.Kind)
  /-- No name after a symbol that announces one. -/
  | missingName (after found : Token.Kind)
  /-- No block after a part. -/
  | missingBlock (after : Part)
  /-- A block without its end. -/
  | unclosedBlock
  /-- No value where an expression begins. -/
  | missingValue (found : Token.Kind)
  /-- A group without its end. -/
  | unclosedParenthesis
  /-- Two values in a row. -/
  | strayLiteral (found : Token.Kind)
  deriving DecidableEq, Repr

/-- The fault in words. -/
def Fault.describe : Fault → String
  | .missing expected after found =>
    s!"expected {expected.describe} after {after.describe}, found {found.describe}"
  | .missingName after found =>
    s!"expected a variable name after {after.describe}, found {found.describe}"
  | .missingBlock after => s!"expected {Token.Kind.blockOpen.describe} after {after.describe}"
  | .unclosedBlock => s!"expected {Token.Kind.blockClose.describe} to close the block"
  | .missingValue found => s!"expected a value, found {found.describe}"
  | .unclosedParenthesis =>
    s!"expected {Token.Kind.rightParen.describe} to close the parenthesis"
  | .strayLiteral found =>
    s!"stray literal {found.describe}; an operator may be missing"

/-- A parse error: where, in what, and why. -/
structure Error where
  /-- Where the offending token stands. -/
  position : Position
  /-- What was being read. -/
  construct : Construct
  /-- What is wrong. -/
  fault : Fault
  deriving DecidableEq, Repr

/-- The line that reports a parse error. -/
def report (position : Position) (construct detail : String) : String :=
  s!"[parse error] {position.describe}: {construct}: {detail}"

/-- The line that reports the error. -/
def Error.message (error : Error) : String :=
  report error.position error.construct.describe error.fault.describe

end Parse
end Pictogram
