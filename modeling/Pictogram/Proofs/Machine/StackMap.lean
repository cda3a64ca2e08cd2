import Pictogram.Proofs.Machine.Execution
import Mathlib.Order.Bounds.Defs
import Mathlib.Data.Set.Insert

/-!
# What stands on the stack

A stack map says for every instruction of a method which kinds of operands are on
the stack when it is reached.  It begins with nothing at the first instruction
and is carried along every way from one instruction to another, by falling
through or by a branch: every instruction has to find the operands it needs, and
ways that meet have to bring the same.
-/

namespace Pictogram
namespace Machine

open Pictogram.Class (Pool)
open Pictogram.Class.Pool (Member)

/-- What kind an operand is of. -/
inductive Kind where
  | int
  /-- A reference to a text. -/
  | text
  /-- The standard output. -/
  | stream
  deriving DecidableEq, Repr

/-- The kind of what a local variable holds. -/
def Cell.kind : Cell → Kind
  | .int => .int
  | .reference => .text

/-- The kind of a datum. -/
def Datum.kind? : Datum → Option Kind
  | .int _ => some .int
  | .text _ => some .text
  | .stream => some .stream
  | .blank => none

/-- The kind of the argument that a method takes. -/
def argumentKind? (method : Member) : Option Kind :=
  if method = printLine "(I)V" ∨ method = printLine "(Z)V" then some .int
  else if method = printLine "(Ljava/lang/String;)V" then some .text
  else none

/-- The stack after a test. -/
def Test.retype? : Test → List Kind → Option (List Kind)
  | .always, stack => some stack
  | .zero, .int :: stack => some stack
  | .nonzero, .int :: stack => some stack
  | .compare _, .int :: .int :: stack => some stack
  | _, _ => none

/-- The stack after an action.  A return has to find it empty. -/
def Action.retype? (pool : Pool) (action : Action) (stack : List Kind) : Option (List Kind) :=
  match action with
  | .push _ => some (.int :: stack)
  | .constant index => do
    let kind ← (← Datum.ofConstant? pool index).kind?
    return kind :: stack
  | .load cell _ => some (cell.kind :: stack)
  | .store cell _ =>
    match stack with
    | top :: rest => if top = cell.kind then some rest else none
    | _ => none
  | .pop =>
    match stack with
    | _ :: rest => some rest
    | _ => none
  | .dup =>
    match stack with
    | top :: rest => some (top :: top :: rest)
    | _ => none
  | .arithmetic _ =>
    match stack with
    | .int :: .int :: rest => some (.int :: rest)
    | _ => none
  | .negate =>
    match stack with
    | .int :: rest => some (.int :: rest)
    | _ => none
  | .increment _ _ => some stack
  | .branch test _ => test.retype? stack
  | .leave => if stack = [] then some [] else none
  | .field index =>
    if pool.field? index = some standardOutput then some (.stream :: stack) else none
  | .call index =>
    match stack with
    | argument :: .stream :: rest =>
      if (pool.method? index).bind argumentKind? = some argument then some rest else none
    | _ => none

/-- Where an action at an address leads, given its size. -/
def Action.targets (address size : Nat) : Action → List Int
  | .leave => []
  | .branch .always offset => [address + offset]
  | .branch _ offset => [address + size, address + offset]
  | _ => [address + size]

/-- Whether an action leads to the next instruction and to no other. -/
def Action.isStraight : Action → Bool
  | .leave | .branch .. => false
  | _ => true

/-- An action that goes straight on leads to the next instruction only. -/
theorem Action.targets_of_isStraight
    {action : Action}
    (straight : action.isStraight)
    (address size : Nat) :
    action.targets address size = [(address : Int) + size] := by
  cases action <;> simp_all [isStraight, targets]

/-- The instruction at an address turns a stack into another and leads to the
given places. -/
def Routine.Retypes
    (routine : Routine)
    (address : Nat)
    (stack next : List Kind)
    (targets : List Int) : Prop :=
  ∃ action size, Action.read? (routine.code.drop address) = some (action, size) ∧
    action.retype? routine.pool stack = some next ∧ targets = action.targets address size

/-- The operands at every instruction of a method, and at no other address. -/
structure StackMap (routine : Routine) (stackAt : Nat → Option (List Kind)) : Prop where
  /-- Instructions have a stack, and nothing else has. -/
  domain : ∀ address, (stackAt address).isSome ↔
    ∃ instruction ∈ decode routine.code, instruction.address = address
  /-- The method begins with an empty stack. -/
  entry : stackAt 0 = some []
  /-- Every instruction finds its operands, and every place that it leads to is an
  instruction with the stack that it leaves. -/
  flow : ∀ address stack, stackAt address = some stack →
    ∃ next targets, routine.Retypes address stack next targets ∧
      ∀ target ∈ targets, ∃ place : Nat, target = place ∧ stackAt place = some next

/-- The heights of the stack on the ways from one instruction to another. -/
def edgeHeights (routine : Routine) (stackAt : Nat → Option (List Kind)) : Set Nat :=
  { height | ∃ address stack next targets, stackAt address = some stack ∧
    routine.Retypes address stack next targets ∧ targets ≠ [] ∧ next.length = height }

/-- The instruction at an address reads or writes a local variable. -/
def Routine.Accesses
    (routine : Routine)
    (address : Nat)
    (slot : UInt8)
    (cell : Cell) : Prop :=
  ∃ action size, Action.read? (routine.code.drop address) = some (action, size) ∧
    action.local? = some (slot, cell)

end Machine
end Pictogram
