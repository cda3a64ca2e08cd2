import Pictogram.Class.File
import Pictogram.Proofs.Machine.Action
import Mathlib.Logic.Function.Basic
import Mathlib.Logic.Relation

/-!
# Running a method

The machine keeps a stack of operands, local variables and the lines printed.
Integers have 32 bits and wrap around, quotients are cut off towards zero, and
a division by zero has no result.  The one field known is the standard output,
and the one method known is the one that prints a line.  A stack higher than
the method states, or a local beyond those it states, stops the machine.
-/

namespace Pictogram

namespace Class
namespace Pool

/-- The text at an index. -/
def text? (pool : Pool) (index : UInt16) : Option String :=
  match pool.get? index with
  | some (.text text) => some text
  | _ => none

/-- The name of the class at an index. -/
def className? (pool : Pool) (index : UInt16) : Option String :=
  match pool.get? index with
  | some (.classRef name) => pool.text? name
  | _ => none

/-- A member of a class, by names. -/
structure Member where
  /-- The name of the class. -/
  owner : String
  /-- The name of the member. -/
  name : String
  /-- The descriptor of the member. -/
  descriptor : String
  deriving DecidableEq, Repr

/-- The member that a class and a signature stand for. -/
def member? (pool : Pool) (owner signature : UInt16) : Option Member :=
  match pool.get? signature with
  | some (.nameAndType name descriptor) => do
    return ⟨← pool.className? owner, ← pool.text? name, ← pool.text? descriptor⟩
  | _ => none

/-- The field at an index. -/
def field? (pool : Pool) (index : UInt16) : Option Member :=
  match pool.get? index with
  | some (.fieldRef owner signature) => pool.member? owner signature
  | _ => none

/-- The method at an index. -/
def method? (pool : Pool) (index : UInt16) : Option Member :=
  match pool.get? index with
  | some (.methodRef owner signature) => pool.member? owner signature
  | _ => none

end Pool
end Class

namespace Machine

open Pictogram.Class (Pool)
open Pictogram.Class.Pool (Member)

/-- What a place on the stack or a local variable holds. -/
inductive Datum where
  | int (value : Int32)
  | text (text : String)
  /-- The standard output. -/
  | stream
  /-- What a local variable holds at first. -/
  | blank
  deriving DecidableEq, Repr

/-- The datum of a constant. -/
def Datum.ofConstant? (pool : Pool) (index : UInt16) : Option Datum :=
  match pool.get? index with
  | some (.integer value) => some (.int value)
  | some (.stringRef place) => (pool.text? place).map .text
  | _ => none

/-- The result of an operation on two integers.  There is none for a division
by zero. -/
def Arithmetic.result? (left right : Int32) : Arithmetic → Option Int32
  | .add => some (left + right)
  | .subtract => some (left - right)
  | .multiply => some (left * right)
  | .divide => if right = 0 then none else some (left / right)
  | .remainder => if right = 0 then none else some (left % right)
  | .and => some (left &&& right)
  | .or => some (left ||| right)

/-- Whether a relation holds between two integers. -/
def Relation.holds (left right : Int32) : Relation → Bool
  | .equal => left = right
  | .notEqual => left ≠ right
  | .less => left < right
  | .greaterOrEqual => right ≤ left
  | .greater => right < left
  | .lessOrEqual => left ≤ right

/-- Whether a branch is taken, and the stack after the test. -/
def Test.decide? : Test → List Datum → Option (Bool × List Datum)
  | .always, stack => some (true, stack)
  | .zero, .int value :: stack => some (value = 0, stack)
  | .nonzero, .int value :: stack => some (value ≠ 0, stack)
  | .compare relation, .int right :: .int left :: stack =>
    some (relation.holds left right, stack)
  | _, _ => none

/-- What a method works on. -/
structure Frame where
  /-- The operands, the uppermost first. -/
  stack : List Datum
  /-- The local variables. -/
  locals : UInt8 → Datum
  /-- The lines printed. -/
  printed : List String

/-- The frame with an operand on top. -/
def Frame.push (frame : Frame) (datum : Datum) : Frame :=
  { frame with stack := datum :: frame.stack }

/-- The standard output. -/
def standardOutput : Member := ⟨"java/lang/System", "out", "Ljava/io/PrintStream;"⟩

/-- The method that prints a line, for arguments with a descriptor. -/
def printLine (descriptor : String) : Member := ⟨"java/io/PrintStream", "println", descriptor⟩

/-- The line that a method prints for an argument. -/
def line? (method : Member) : Datum → Option String
  | .int value =>
    if method = printLine "(I)V" then some (toString value.toInt)
    else if method = printLine "(Z)V" then some (if value ≠ 0 then "true" else "false")
    else none
  | .text text => if method = printLine "(Ljava/lang/String;)V" then some text else none
  | _ => none

/-- A frame with another stack. -/
def Frame.withStack (frame : Frame) (stack : List Datum) : Frame := { frame with stack }

/-- A frame with another value of a local variable. -/
def Frame.withLocal (frame : Frame) (slot : UInt8) (value : Datum) : Frame :=
  { frame with locals := Function.update frame.locals slot value }

/-- A frame after an action.  Branches and returns are not performed so. -/
def Action.perform? (pool : Pool) (action : Action) (frame : Frame) : Option Frame :=
  match action with
  | .push value => some (frame.push (.int value))
  | .constant index => (Datum.ofConstant? pool index).map frame.push
  | .load _ slot => some (frame.push (frame.locals slot))
  | .store _ slot =>
    match frame.stack with
    | top :: stack => some ((frame.withStack stack).withLocal slot top)
    | _ => none
  | .pop =>
    match frame.stack with
    | _ :: stack => some (frame.withStack stack)
    | _ => none
  | .dup =>
    match frame.stack with
    | top :: stack => some (frame.withStack (top :: top :: stack))
    | _ => none
  | .arithmetic operation =>
    match frame.stack with
    | .int right :: .int left :: stack =>
      (operation.result? left right).map fun value => frame.withStack (.int value :: stack)
    | _ => none
  | .negate =>
    match frame.stack with
    | .int value :: stack => some (frame.withStack (.int (-value) :: stack))
    | _ => none
  | .increment slot change =>
    match frame.locals slot with
    | .int value => some (frame.withLocal slot (.int (value + change)))
    | _ => none
  | .field index =>
    if pool.field? index = some standardOutput then some (frame.push .stream) else none
  | .call index =>
    match frame.stack with
    | argument :: .stream :: stack => do
      let line ← line? (← pool.method? index) argument
      return { frame with stack, printed := frame.printed ++ [line] }
    | _ => none
  | .branch .. | .leave => none

/-- The local variable that an action reads or writes, with what it holds. -/
def Action.local? : Action → Option (UInt8 × Cell)
  | .load cell slot | .store cell slot => some (slot, cell)
  | .increment slot _ => some (slot, .int)
  | _ => none

/-- A method as the machine sees it. -/
structure Routine where
  /-- The bytes of its instructions. -/
  code : List UInt8
  /-- The constants of its class. -/
  pool : Pool
  /-- The greatest height of the stack. -/
  maxStack : UInt16
  /-- The number of local variables. -/
  maxLocals : UInt16

/-- A method at one of its instructions. -/
structure State where
  /-- The address of the instruction. -/
  counter : Nat
  /-- What the method works on. -/
  frame : Frame

/-- What comes of an instruction. -/
inductive Outcome where
  /-- The method goes on. -/
  | next (state : State)
  /-- The method has returned. -/
  | returned
  /-- The instruction cannot be performed. -/
  | stuck

namespace Routine

/-- Goes on at an address, if it is not negative. -/
def goTo (address : Int) (frame : Frame) : Outcome :=
  match address with
  | .ofNat counter => .next ⟨counter, frame⟩
  | .negSucc _ => .stuck

/-- Whether the method has the local variable that an action needs. -/
def hasLocal (routine : Routine) (action : Action) : Bool :=
  match action.local? with
  | some (slot, _) => slot.toNat < routine.maxLocals.toNat
  | none => true

/-- Performs an action of the given size. -/
def perform (routine : Routine) (action : Action) (size : Nat) : State → Outcome
  | ⟨counter, frame⟩ =>
    match action with
    | .leave => if frame.stack = [] then .returned else .stuck
    | .branch test offset =>
      match test.decide? frame.stack with
      | some (taken, stack) =>
        goTo (counter + if taken then offset else size) { frame with stack }
      | none => .stuck
    | action =>
      if routine.hasLocal action then
        match action.perform? routine.pool frame with
        | some frame => .next ⟨counter + size, frame⟩
        | none => .stuck
      else .stuck

/-- Performs the instruction at the counter. -/
def step (routine : Routine) (state : State) : Outcome :=
  if routine.maxStack.toNat < state.frame.stack.length then .stuck
  else match Action.read? (routine.code.drop state.counter) with
    | some (action, size) => routine.perform action size state
    | none => .stuck

/-- Performs the instruction at the counter, however high the stack is. -/
def advance (routine : Routine) (state : State) : Outcome :=
  match Action.read? (routine.code.drop state.counter) with
  | some (action, size) => routine.perform action size state
  | none => .stuck

/-- The height of the stack makes no difference to a step, unless it is too high. -/
theorem step_eq_advance
    {routine : Routine}
    {state : State}
    (height : state.frame.stack.length ≤ routine.maxStack.toNat) :
    routine.step state = routine.advance state :=
  if_neg (Nat.not_lt.mpr height)

/-- One state leads to another, by any number of instructions and on a stack of any height. -/
def Advances (routine : Routine) : State → State → Prop :=
  Relation.ReflTransGen fun state next => routine.advance state = .next next

/-- The machine is in front of a division by zero. -/
def DividesByZero (routine : Routine) (state : State) : Prop :=
  ∃ operation size left stack,
    Action.read? (routine.code.drop state.counter) = some (.arithmetic operation, size) ∧
    (operation = .divide ∨ operation = .remainder) ∧
    state.frame.stack = .int 0 :: .int left :: stack

/-- The machine cannot divide by zero. -/
theorem DividesByZero.stuck
    {routine : Routine}
    {state : State}
    (divides : routine.DividesByZero state) :
    routine.advance state = .stuck := by
  obtain ⟨operation, size, left, stack, read, isDivision, isStack⟩ := divides
  have none : operation.result? left 0 = Option.none := by
    rcases isDivision with rfl | rfl <;> rfl
  simp [advance, read, perform, hasLocal, Action.local?, Action.perform?, isStack, none]

/-- One state leads to another, by any number of instructions. -/
def Reaches (routine : Routine) : State → State → Prop :=
  Relation.ReflTransGen fun state next => routine.step state = .next next

/-- The state that a method starts in. -/
def initial : State := ⟨0, [], fun _ => .blank, []⟩

/-- The method returns after it has printed these lines. -/
def Prints (routine : Routine) (lines : List String) : Prop :=
  ∃ last, routine.Reaches initial last ∧ routine.step last = .returned ∧
    last.frame.printed = lines

end Routine
end Machine

namespace Class

/-- The method of a name, as the machine sees it. -/
def File.routine? (file : File) (name : String) : Option Machine.Routine := do
  let method ← file.methods.find? fun method => file.pool.text? method.name = some name
  match method.attributes.head? with
  | some (.code _ maxStack maxLocals code _) => some ⟨code, file.pool, maxStack, maxLocals⟩
  | _ => none

end Class
end Pictogram
