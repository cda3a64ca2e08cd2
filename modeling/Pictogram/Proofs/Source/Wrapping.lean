import Pictogram.Compile.Error
import Pictogram.Number.Integral
import Pictogram.Proofs.Machine.Execution
import Pictogram.Proofs.Number.Whole
import Pictogram.Syntax

/-!
# Expressions on 32-bit integers

What expressions mean where every number is a 32-bit integer.  An operation is done on whole
numbers and its result wraps around, quotients are cut off towards zero, and comparisons
respect the sign.  The operands of an operator are evaluated from left to right, always both.
-/

namespace Pictogram
namespace Wrapping

open Compile (StaticType)
open Machine (Datum)

/-- A value of one of the types that generated code computes with. -/
inductive Scalar where
  | number (value : Int32)
  | truth (value : Bool)
  | text (text : String)

/-- The type of a value. -/
def Scalar.type : Scalar → StaticType
  | .number _ => .int
  | .truth _ => .boolean
  | .text _ => .string

/-- What the machine holds for a value.  Booleans are the integers 0 and 1. -/
def Scalar.datum : Scalar → Datum
  | .number value => .int value
  | .truth value => .int (if value then 1 else 0)
  | .text content => .text content

/-- Why there is no value. -/
inductive Stop where
  | divisionByZero
  /-- An operation on values that it does not combine. -/
  | mistyped

/-- The 32-bit integer that is equal to a whole number, up to a multiple of 2 to the 32. -/
def wrap (number : Int) : Scalar := .number (.ofInt number)

/-- The operation on two integers. -/
def onIntegers (left right : Int) : BinaryOperator → Except Stop Scalar
  | .add => .ok (wrap (left + right))
  | .subtract => .ok (wrap (left - right))
  | .multiply => .ok (wrap (left * right))
  | .divide => if right = 0 then .error .divisionByZero else .ok (wrap (left.tdiv right))
  | .modulo => if right = 0 then .error .divisionByZero else .ok (wrap (left.tmod right))
  | .equal => .ok (.truth (left = right))
  | .lessThan => .ok (.truth (left < right))
  | .lessOrEqual => .ok (.truth (left ≤ right))
  | .greaterThan => .ok (.truth (right < left))
  | .greaterOrEqual => .ok (.truth (right ≤ left))
  | .and | .or => .error .mistyped

/-- The operation on two booleans. -/
def onTruths (left right : Bool) : BinaryOperator → Except Stop Scalar
  | .equal => .ok (.truth (left = right))
  | .and => .ok (.truth (left && right))
  | .or => .ok (.truth (left || right))
  | _ => .error .mistyped

/-- The operation on two values. -/
def operate (operator : BinaryOperator) : Scalar → Scalar → Except Stop Scalar
  | .number left, .number right => onIntegers left.toInt right.toInt operator
  | .truth left, .truth right => onTruths left right operator
  | _, _ => .error .mistyped

/-- The negative of a value. -/
def negated : Scalar → Except Stop Scalar
  | .number value => .ok (wrap (-value.toInt))
  | _ => .error .mistyped

/-- The value of a literal. -/
def literal : Literal → Except Stop Scalar
  | .number value =>
    match Number.toInt32? value with
    | some integer => .ok (.number integer)
    | none => .error .mistyped
  | .boolean value => .ok (.truth value)
  | .string text => .ok (.text text)
  | .null => .error .mistyped

/-- The value of a number that is written out is the 32-bit integer that the number is. -/
theorem literal_number_eq_ok_iff {number : Float} {value : Int32} :
    literal (.number number) = .ok (.number value) ↔ Number.IsWhole number value.toInt := by
  rw [← Number.toInt32?_eq_some, literal]
  cases Number.toInt32? number <;> simp

/-- The values of the variables, and how they came about. -/
structure Memory where
  /-- The value of each name. -/
  values : String → Scalar
  /-- The assignments made so far, in order. -/
  assigned : List (String × Scalar)

/-- The memory after an assignment. -/
def Memory.assign (memory : Memory) (name : String) (value : Scalar) : Memory where
  values := Function.update memory.values name value
  assigned := memory.assigned ++ [(name, value)]

/-- A part of an evaluation, which may change the variables. -/
abbrev Computation := EStateM Stop Memory

/-- What an operation gives. -/
def outcome : Except Stop Scalar → Computation Scalar
  | .ok value => pure value
  | .error stop => throw stop

/-- The value of an expression, its parts evaluated from left to right. -/
def evaluate : Expression → Computation Scalar
  | .literal value _ => outcome (literal value)
  | .name id => return (← get).values id.name
  | .negate argument _ => do
    let operand ← evaluate argument
    outcome (negated operand)
  | .binary operator left right _ => do
    let left ← evaluate left
    let right ← evaluate right
    outcome (operate operator left right)
  | .assign target expression => do
    let value ← evaluate expression
    modify (·.assign target.name value)
    return value

/-! ## The variables assigned inside an expression -/

/-- The variables assigned inside an expression, in the order of the assignments. -/
def targets : Expression → List String
  | .literal .. | .name _ => []
  | .negate argument _ => targets argument
  | .binary _ left right _ => targets left ++ targets right
  | .assign target expression => targets expression ++ [target.name]

/-- A computation has assigned these variables in turn, or only the first of them if it
stopped. -/
inductive Assigns (names : List String) (memory : Memory) :
    EStateM.Result Stop Memory Scalar → Prop
  | all {value : Scalar} {later : Memory} :
      later.assigned.map Prod.fst = memory.assigned.map Prod.fst ++ names →
      Assigns names memory (.ok value later)
  | some {stop : Stop} {later : Memory} {first : List String} :
      first <+: names →
      later.assigned.map Prod.fst = memory.assigned.map Prod.fst ++ first →
      Assigns names memory (.error stop later)

theorem Assigns.outcome (memory : Memory) (result : Except Stop Scalar) :
    Assigns [] memory (outcome result memory) := by
  cases result with
  | ok value => exact .all (by simp)
  | error stop => exact .some (List.prefix_refl _) (by simp)

/-- Computations one after the other assign the variables of the first and then those of the second.
-/
theorem Assigns.bind
    {first : Computation Scalar}
    {next : Scalar → Computation Scalar}
    {names others : List String}
    {memory : Memory}
    (assigns : Assigns names memory (first memory))
    (goesOn : ∀ value later, Assigns others later (next value later)) :
    Assigns (names ++ others) memory ((first >>= next) memory) := by
  show Assigns _ _ (EStateM.bind first next memory)
  unfold EStateM.bind
  cases ran : first memory with
  | ok value later =>
      rw [ran] at assigns
      obtain ⟨firstNames⟩ := assigns
      dsimp only
      cases ranOn : next value later with
      | ok result last =>
          have more := goesOn value later
          rw [ranOn] at more
          obtain ⟨nextNames⟩ := more
          exact .all (by rw [nextNames, firstNames, List.append_assoc])
      | error stop last =>
          have more := goesOn value later
          rw [ranOn] at more
          obtain - | ⟨isPrefix, nextNames⟩ := more
          refine .some ((List.prefix_append_right_inj names).mpr isPrefix) ?_
          rw [nextNames, firstNames, List.append_assoc]
  | error stop later =>
      rw [ran] at assigns
      obtain - | ⟨isPrefix, firstNames⟩ := assigns
      exact .some (isPrefix.trans (List.prefix_append _ _)) firstNames

/-- An expression assigns the variables that it assigns in its text, in that order. -/
theorem evaluate_assigns (e : Expression) (memory : Memory) :
    Assigns (targets e) memory (evaluate e memory) := by
  induction e generalizing memory with
  | literal value position => exact .outcome memory _
  | name id => exact .all (by simp [targets])
  | negate argument position argumentHypothesis =>
      rw [targets, ← List.append_nil (targets argument)]
      exact (argumentHypothesis memory).bind fun _ later => .outcome later _
  | binary operator left right position leftHypothesis rightHypothesis =>
      refine (leftHypothesis memory).bind fun _ middle => ?_
      rw [← List.append_nil (targets right)]
      exact (rightHypothesis middle).bind fun _ later => .outcome later _
  | assign target expression expressionHypothesis =>
      exact (expressionHypothesis memory).bind fun value later => .all (by simp [Memory.assign])

/-! ## The machine's integers -/

section Integers

variable {left right : Int32}

theorem wrap_add : wrap (left.toInt + right.toInt) = .number (left + right) := by
  simp [wrap, Int32.ofInt_add]

theorem wrap_sub : wrap (left.toInt - right.toInt) = .number (left - right) := by
  simp [wrap, Int32.ofInt_sub]

theorem wrap_mul : wrap (left.toInt * right.toInt) = .number (left * right) := by
  simp [wrap, Int32.ofInt_mul]

theorem wrap_neg : wrap (-left.toInt) = .number (-left) := by
  simp [wrap, Int32.ofInt_neg]

theorem wrap_div : wrap (left.toInt.tdiv right.toInt) = .number (left / right) := by
  rw [wrap, Int32.ofInt_tdiv left.minValue_le_toInt left.toInt_le right.minValue_le_toInt
    right.toInt_le, Int32.ofInt_toInt, Int32.ofInt_toInt]

theorem wrap_mod : wrap (left.toInt.tmod right.toInt) = .number (left % right) := by
  rw [wrap, Int32.ofInt_tmod left.minValue_le_toInt left.toInt_le right.minValue_le_toInt
    right.toInt_le, Int32.ofInt_toInt, Int32.ofInt_toInt]

theorem toInt_eq_zero_iff : right.toInt = 0 ↔ right = 0 := by
  rw [← Int32.toInt_inj]
  rfl

end Integers

end Wrapping
end Pictogram
