import Pictogram.Compile.Emit
import Pictogram.Number.Integral

/-!
# Code of expressions

The code of an expression leaves its value on the stack, a comparison 0 or 1.
Both operands of an operator are evaluated always.
-/

namespace Pictogram
namespace Compile

open Pictogram.Class (Pool)
open Machine (Opcode)

/-- Code that has to leave a value of the given type. -/
def require (expected : StaticType) (position : Position) (code : Emit StaticType) :
    Emit Unit := do
  let found ← code
  if found ≠ expected then throw (.mismatch expected found position)

/-- The code of a literal. -/
def literal (position : Position) : Literal → Emit StaticType
  | .number value => do
    match Number.toInt32? value with
    | some integer => Emit.pushInt integer
    | none => throw (.unsupported (.number value) position)
    return .int
  | .string text => do
    let index ← Emit.onPool (Pool.stringRef text)
    Emit.loadConstant index
    return .string
  | .boolean value => do
    Emit.pushInt (if value then 1 else 0)
    return .boolean
  | .null => throw (.unsupported .null position)

/-- Leaves 1 if the relation holds between the two upper integers, else 0. -/
def comparison (relation : Machine.Relation) : Emit Unit := do
  let whenTrue ← Emit.jump (.ifCompare relation)
  Emit.pushInt 0
  let done ← Emit.jump .goto
  Emit.patch whenTrue
  -- Only one of the two numbers is pushed.
  Emit.write (·.adjust (-1))
  Emit.pushInt 1
  Emit.patch done

/-- Two operands with their types, and where they and their operator stand. -/
structure Operands where
  /-- The type of the left operand. -/
  left : StaticType
  /-- The type of the right operand. -/
  right : StaticType
  /-- Where the left operand stands. -/
  leftPosition : Position
  /-- Where the right operand stands. -/
  rightPosition : Position
  /-- Where the operator stands. -/
  position : Position

/-- Makes sure that both operands are of a type. -/
def Operands.require (operands : Operands) (expected : StaticType) : Emit Unit :=
  if operands.left ≠ expected then
    throw (.mismatch expected operands.left operands.leftPosition)
  else if operands.right ≠ expected then
    throw (.mismatch expected operands.right operands.rightPosition)
  else pure ()

/-- Refuses two texts. -/
def Operands.refuseTexts (operands : Operands) (construct : Unsupported) : Emit Unit :=
  if operands.left = .string ∧ operands.right = .string then
    throw (.unsupported construct operands.position)
  else pure ()

/-- The code of an operation on two integers. -/
def arithmetic (operands : Operands) (operation : Machine.Arithmetic) : Emit StaticType := do
  operands.require .int
  Emit.instruction (.arithmetic operation)
  return .int

/-- The code of a comparison by order. -/
def ordering (operands : Operands) (relation : Machine.Relation) : Emit StaticType := do
  operands.require .int
  comparison relation
  return .boolean

/-- The code of an operation on two booleans. -/
def logical (operands : Operands) (operation : Machine.Arithmetic) : Emit StaticType := do
  operands.require .boolean
  Emit.instruction (.arithmetic operation)
  return .boolean

/-- The code of a comparison for equality. -/
def equality (operands : Operands) : Emit StaticType := do
  operands.refuseTexts .textComparison
  if operands.left ≠ operands.right then
    throw (.mismatch operands.left operands.right operands.rightPosition)
  comparison .equal
  return .boolean

/-- The code of an operator, after that of its operands. -/
def operation (operands : Operands) : BinaryOperator → Emit StaticType
  | .add => do
    operands.refuseTexts .concatenation
    arithmetic operands .add
  | .subtract => arithmetic operands .subtract
  | .multiply => arithmetic operands .multiply
  | .divide => arithmetic operands .divide
  | .modulo => arithmetic operands .remainder
  | .equal => equality operands
  | .lessThan => ordering operands .less
  | .lessOrEqual => ordering operands .lessOrEqual
  | .greaterThan => ordering operands .greater
  | .greaterOrEqual => ordering operands .greaterOrEqual
  | .and => logical operands .and
  | .or => logical operands .or

/-- The code of an assignment.  The value is left on the stack if it is to be
kept. -/
def assignment
    (target : Identifier)
    (value : Emit StaticType)
    (valuePosition : Position)
    (keep : Bool) : Emit StaticType := do
  let found ← Emit.resolve target
  require found.type valuePosition value
  if keep then Emit.instruction .dup
  Emit.store found.type found.slot
  return found.type

/-- The code of an expression. -/
def expression : Expression → Emit StaticType
  | .literal value position => literal position value
  | .name id => do
    let found ← Emit.resolve id
    Emit.load found.type found.slot
    return found.type
  | .negate argument _ => do
    require .int argument.position (expression argument)
    Emit.instruction .negate
    return .int
  | .binary operator left right position => do
    let leftType ← expression left
    let rightType ← expression right
    operation ⟨leftType, rightType, left.position, right.position, position⟩ operator
  | .assign target value => assignment target (expression value) value.position true

end Compile
end Pictogram
