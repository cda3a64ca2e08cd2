import Pictogram.Proofs.Code.Expression
import Pictogram.Proofs.Code.Runs
import Pictogram.Proofs.Source.Wrapping

/-!
# The code of expressions computes with 32-bit integers

The code of an expression does what the expression means on 32-bit integers, wherever
it stands and whatever lies on the stack below.  It puts one value on the stack, or the
machine stops in front of a division by zero.  It prints nothing, and the local variables
change by the assignments inside the expression.
-/

namespace Pictogram
namespace Compile

open Machine (Action Datum Frame Order Routine State)
open Wrapping (Assigns Memory Scalar Stop evaluate operate outcome targets)

/-- The slots of all names in scope hold their values, which are of the types of the
names. -/
def Slots.Bear (slots : Slots) (values : String → Scalar) (locals : UInt8 → Datum) : Prop :=
  ∀ {name found}, slots.resolve? name = some found →
    (values name).type = found.type ∧ locals found.slot = (values name).datum

/-- The local variables after an assignment. -/
def Slots.assign (slots : Slots) (locals : UInt8 → Datum) (assignment : String × Scalar) :
    UInt8 → Datum :=
  match slots.resolve? assignment.1 with
  | some found => Function.update locals found.slot assignment.2.datum
  | none => locals

/-- The local variables have changed by the assignments that the memory has changed by,
one after the other. -/
structure Slots.Follows
    (slots : Slots)
    (memory later : Memory)
    (before after : UInt8 → Datum) : Prop where
  bear : slots.Bear later.values after
  assigned : ∃ more, later.assigned = memory.assigned ++ more ∧
    after = more.foldl slots.assign before

section Follows

variable {slots : Slots} {memory middle later : Memory} {first second third : UInt8 → Datum}

theorem Slots.Follows.refl (bear : slots.Bear memory.values first) :
    slots.Follows memory memory first first :=
  ⟨bear, [], by simp, rfl⟩

theorem Slots.Follows.trans
    (earlier : slots.Follows memory middle first second)
    (next : slots.Follows middle later second third) :
    slots.Follows memory later first third := by
  obtain ⟨some, isSome, rfl⟩ := earlier.assigned
  obtain ⟨more, isMore, rfl⟩ := next.assigned
  refine ⟨next.bear, some ++ more, ?_, ?_⟩
  · rw [isMore, isSome, List.append_assoc]
  · rw [List.foldl_append]

/-- A value of the right type is assigned to a name and written to its slot. -/
theorem Slots.Follows.assign
    {name : String}
    {found : Local}
    {value : Scalar}
    (valid : slots.Valid)
    (bear : slots.Bear memory.values first)
    (resolved : slots.resolve? name = some found)
    (ofType : value.type = found.type) :
    slots.Follows memory (memory.assign name value) first
      (Function.update first found.slot value.datum) where
  bear := by
    intro other otherFound otherResolved
    show (Function.update memory.values name value other).type = _ ∧
      _ = (Function.update memory.values name value other).datum
    by_cases same : other = name
    · subst same
      obtain rfl := Option.some.inj (resolved.symm.trans otherResolved)
      rw [Function.update_self, Function.update_self]
      exact ⟨ofType, rfl⟩
    · -- Another name has another slot.
      have apart : otherFound.slot ≠ found.slot := by
        intro shared
        obtain ⟨present, named⟩ := Slots.mem_of_resolve? resolved
        obtain ⟨otherPresent, otherNamed⟩ := Slots.mem_of_resolve? otherResolved
        have equal := valid.distinct _ otherPresent _ present shared
        exact same (by rw [← otherNamed, equal, named])
      rw [Function.update_of_ne same, Function.update_of_ne apart]
      exact bear otherResolved
  assigned := ⟨[(name, value)], rfl, by simp [Slots.assign, resolved]⟩

end Follows

/-- What the machine does for a computation, from a state on.  It gets to an address with
the value above what lies below, or comes to a division by zero.  Nothing is printed. -/
inductive Performs
    (routine : Routine)
    (slots : Slots)
    (type : StaticType)
    (start : State)
    (finish : Nat)
    (below : List Datum)
    (memory : Memory) : EStateM.Result Stop Memory Scalar → Prop
  | value {value : Scalar} {later : Memory} {locals : UInt8 → Datum} :
      value.type = type →
      routine.Advances start ⟨finish, value.datum :: below, locals, start.frame.printed⟩ →
      slots.Follows memory later start.frame.locals locals →
      Performs routine slots type start finish below memory (.ok value later)
  | division {later : Memory} {last : State} :
      routine.Advances start last →
      routine.DividesByZero last →
      last.frame.printed = start.frame.printed →
      slots.Follows memory later start.frame.locals last.frame.locals →
      Performs routine slots type start finish below memory (.error .divisionByZero later)

section Performs

variable {routine : Routine} {slots : Slots} {memory : Memory} {address : Nat}
  {below : List Datum} {locals : UInt8 → Datum} {printed : List String}

/-- Two computations one after the other, the second with the value of the first on the
stack. -/
theorem Performs.bind
    {first : Wrapping.Computation Scalar}
    {next : Scalar → Wrapping.Computation Scalar}
    {firstType type : StaticType}
    {start : State}
    {middle finish : Nat}
    {above : List Datum}
    (performs : Performs routine slots firstType start middle above memory (first memory))
    (goesOn : ∀ {value later locals}, value.type = firstType →
      slots.Bear later.values locals →
      Performs routine slots type
        ⟨middle, value.datum :: above, locals, start.frame.printed⟩ finish below later
        (next value later)) :
    Performs routine slots type start finish below memory ((first >>= next) memory) := by
  show Performs _ _ _ _ _ _ _ (EStateM.bind first next memory)
  unfold EStateM.bind
  generalize first memory = result at performs
  cases performs with
  | division advances divides quiet follows => exact .division advances divides quiet follows
  | @value value later locals ofType advances follows =>
      have more := goesOn ofType follows.bear
      dsimp only
      generalize next value later = last at more
      cases more with
      | value ofType more followsOn =>
          exact .value ofType (advances.trans more) (follows.trans followsOn)
      | division more divides quiet followsOn =>
          exact .division (advances.trans more) divides quiet (follows.trans followsOn)

/-- Code that pushes a value and assigns nothing performs a computation that only gives the value.
-/
theorem Performs.of_advances
    {type : StaticType}
    {start : State}
    {finish : Nat}
    {value : Scalar}
    (bear : slots.Bear memory.values start.frame.locals)
    (ofType : value.type = type)
    (advances : routine.Advances start
      ⟨finish, value.datum :: below, start.frame.locals, start.frame.printed⟩) :
    Performs routine slots type start finish below memory (.ok value memory) :=
  .value ofType advances (.refl bear)

/-! ## Operators -/

/-- One instruction. -/
theorem advances_plain
    {order : Order}
    {action : Action}
    {frame next : Frame}
    (stands : Stands routine.code address (Tree.plain order).bytes)
    (means : order.action? = some action)
    (performed : action.perform? routine.pool frame = some next)
    (hasLocal : routine.hasLocal action) :
    routine.Advances ⟨address, frame⟩ ⟨address + (Tree.plain order).size, next⟩ :=
  .single (advance_plain (by simpa using stands) means performed hasLocal)

/-- A comparison leaves 1 or 0, by the one or the other way. -/
theorem advances_comparison
    {relation : Machine.Relation}
    {left right : Int32}
    {result : Bool}
    (compared : relation.holds left right = result)
    (fits : (Tree.comparison relation).Fits)
    (stands : Stands routine.code address (Tree.comparison relation).bytes) :
    routine.Advances ⟨address, .int right :: .int left :: below, locals, printed⟩
      ⟨address + (Tree.comparison relation).size,
        (Scalar.truth result).datum :: below, locals, printed⟩ := by
  obtain ⟨branches, firstStands, leaves, secondStands⟩ := Tree.stands_choose fits stands
  have decided : (Machine.Test.compare relation).decide? (.int right :: .int left :: below) =
      some (result, below) := by
    rw [← compared]
    rfl
  have tested : routine.advance ⟨address, .int right :: .int left :: below, locals, printed⟩ =
      .next ⟨_, below, locals, printed⟩ := advance_branch branches decided
  cases result with
  | true =>
      have pushed : routine.Advances ⟨_, below, locals, printed⟩
          ⟨_, .int 1 :: below, locals, printed⟩ := advances_plain secondStands rfl rfl rfl
      exact .head tested pushed
  | false =>
      have pushed : routine.Advances ⟨_, below, locals, printed⟩
          ⟨_, .int 0 :: below, locals, printed⟩ := advances_plain firstStands rfl rfl rfl
      have left : routine.advance ⟨_, .int 0 :: below, locals, printed⟩ =
          .next ⟨_, .int 0 :: below, locals, printed⟩ := advance_branch leaves rfl
      exact .head tested (pushed.tail left)

/-- An operation of the machine on two integers. -/
theorem advances_arithmetic
    {operation : Machine.Arithmetic}
    {left right result : Int32}
    (applied : operation.result? left right = some result)
    (stands : Stands routine.code address (Tree.plain (.arithmetic operation)).bytes) :
    routine.Advances ⟨address, .int right :: .int left :: below, locals, printed⟩
      ⟨address + (Tree.plain (.arithmetic operation)).size, .int result :: below, locals,
        printed⟩ :=
  advances_plain stands rfl (Action.perform?_arithmetic applied _ _ _ _) rfl

/-- The machine is in front of a division by zero, with the operands on the stack. -/
theorem dividesByZero
    {operation : Machine.Arithmetic}
    {left : Int32}
    (isDivision : operation = .divide ∨ operation = .remainder)
    (stands : Stands routine.code address (Tree.plain (.arithmetic operation)).bytes) :
    routine.DividesByZero ⟨address, .int 0 :: .int left :: below, locals, printed⟩ := by
  rw [Tree.bytes_plain] at stands
  exact ⟨operation, _, left, below, stands.read? rfl, isDivision, rfl⟩

end Performs

section Operators

variable {routine : Routine} {slots : Slots} {memory : Memory} {address : Nat}
  {below : List Datum} {locals : UInt8 → Datum} {printed : List String}
  (bear : slots.Bear memory.values locals)

include bear

/-- A division, which has a result unless it is by zero. -/
theorem Performs.of_division
    {operation : Machine.Arithmetic}
    {left right result : Int32}
    (isDivision : operation = .divide ∨ operation = .remainder)
    (applied : operation.result? left right = if right = 0 then none else some result)
    (stands : Stands routine.code address (Tree.plain (.arithmetic operation)).bytes) :
    Performs routine slots .int ⟨address, .int right :: .int left :: below, locals, printed⟩
      (address + (Tree.plain (.arithmetic operation)).size) below memory
      (outcome (if right.toInt = 0 then .error .divisionByZero else .ok (.number result))
        memory) := by
  by_cases zero : right = 0
  · subst zero
    exact .division .refl (dividesByZero isDivision stands) rfl (.refl bear)
  · rw [if_neg zero] at applied
    rw [if_neg (Wrapping.toInt_eq_zero_iff.not.mpr zero)]
    exact .of_advances bear rfl (advances_arithmetic applied stands)

/-- The code of an operator on integers with an integer for its result. -/
theorem Performs.integer
    {operator : BinaryOperator}
    {operation : Machine.Arithmetic}
    (known : integerOperation? operator = some operation)
    (left right : Int32)
    (stands : Stands routine.code address (Tree.plain (.arithmetic operation)).bytes) :
    Performs routine slots .int ⟨address, .int right :: .int left :: below, locals, printed⟩
      (address + (Tree.plain (.arithmetic operation)).size) below memory
      (outcome (operate operator (.number left) (.number right)) memory) := by
  cases operator <;> cases known <;> simp only [operate, Wrapping.onIntegers]
  case add =>
    rw [Wrapping.wrap_add]
    exact .of_advances bear rfl (advances_arithmetic rfl stands)
  case subtract =>
    rw [Wrapping.wrap_sub]
    exact .of_advances bear rfl (advances_arithmetic rfl stands)
  case multiply =>
    rw [Wrapping.wrap_mul]
    exact .of_advances bear rfl (advances_arithmetic rfl stands)
  case divide =>
    rw [Wrapping.wrap_div]
    exact .of_division bear (.inl rfl) rfl stands
  case modulo =>
    rw [Wrapping.wrap_mod]
    exact .of_division bear (.inr rfl) rfl stands

/-- The code of a comparison, given that the machine's relation is the one meant. -/
theorem Performs.comparison
    {relation : Machine.Relation}
    {left right : Int32}
    {result : Bool}
    (compared : relation.holds left right = result)
    (fits : (Tree.comparison relation).Fits)
    (stands : Stands routine.code address (Tree.comparison relation).bytes) :
    Performs routine slots .boolean
      ⟨address, .int right :: .int left :: below, locals, printed⟩
      (address + (Tree.comparison relation).size) below memory (.ok (.truth result) memory) :=
  .of_advances bear rfl (advances_comparison compared fits stands)

/-- The code of an operator that compares by order. -/
theorem Performs.ordering
    {operator : BinaryOperator}
    {relation : Machine.Relation}
    (known : orderRelation? operator = some relation)
    (left right : Int32)
    (fits : (Tree.comparison relation).Fits)
    (stands : Stands routine.code address (Tree.comparison relation).bytes) :
    Performs routine slots .boolean
      ⟨address, .int right :: .int left :: below, locals, printed⟩
      (address + (Tree.comparison relation).size) below memory
      (outcome (operate operator (.number left) (.number right)) memory) := by
  cases operator <;> cases known <;> refine .comparison bear ?_ fits stands
  · exact decide_eq_decide.mpr Int32.lt_iff_toInt_lt
  · exact decide_eq_decide.mpr Int32.le_iff_toInt_le
  · exact decide_eq_decide.mpr Int32.lt_iff_toInt_lt
  · exact decide_eq_decide.mpr Int32.le_iff_toInt_le

/-- The code of an operator on booleans, both of which have been evaluated. -/
theorem Performs.boolean
    {operator : BinaryOperator}
    {operation : Machine.Arithmetic}
    (known : booleanOperation? operator = some operation)
    (left right : Bool)
    (stands : Stands routine.code address (Tree.plain (.arithmetic operation)).bytes) :
    Performs routine slots .boolean
      ⟨address, (Scalar.truth right).datum :: (Scalar.truth left).datum :: below, locals, printed⟩
      (address + (Tree.plain (.arithmetic operation)).size) below memory
      (outcome (operate operator (.truth left) (.truth right)) memory) := by
  cases operator <;> cases known <;>
    refine .of_advances bear rfl (advances_arithmetic ?_ stands)
  · cases left <;> cases right <;> rfl
  · cases left <;> cases right <;> rfl

/-- The code of an operator does what the operator means. -/
theorem OperationTree.performs
    {operator : BinaryOperator}
    {type : StaticType}
    {tree : Tree}
    {left right : Scalar}
    (code : OperationTree operator left.type right.type type tree)
    (fits : tree.Fits)
    (stands : Stands routine.code address tree.bytes) :
    Performs routine slots type ⟨address, right.datum :: left.datum :: below, locals, printed⟩
      (address + tree.size) below memory (outcome (operate operator left right) memory) := by
  generalize isLeft : left.type = leftType at code
  generalize isRight : right.type = rightType at code
  cases code with
  | integer known =>
      cases left <;> cases isLeft
      cases right <;> cases isRight
      exact .integer bear known _ _ stands
  | ordering known =>
      cases left <;> cases isLeft
      cases right <;> cases isRight
      exact .ordering bear known _ _ fits stands
  | boolean known =>
      cases left <;> cases isLeft
      cases right <;> cases isRight
      exact .boolean bear known _ _ stands
  | equality notText =>
      cases left with
      | number left =>
          cases right <;> cases isRight <;> cases isLeft
          exact .comparison bear (decide_eq_decide.mpr Int32.toInt_inj.symm) fits stands
      | truth left =>
          cases right <;> cases isRight <;> cases isLeft
          rename_i right
          refine .comparison bear ?_ fits stands
          cases left <;> cases right <;> rfl
      | text text =>
          cases isLeft
          exact absurd rfl notText

end Operators

/-! ## Expressions -/

section Expressions

variable {routine : Routine} {slots : Slots}

/-- An instruction that pushes a datum advances to the next instruction, with the datum on the
stack. -/
theorem advances_pushes
    {order : Order}
    {datum : Datum}
    {address : Nat}
    (pushes : order.Pushes routine.pool datum)
    (stands : Stands routine.code address (Tree.plain order).bytes)
    (frame : Frame) :
    routine.Advances ⟨address, frame⟩ ⟨address + (Tree.plain order).size, frame.push datum⟩ := by
  cases pushes with
  | operand means => exact advances_plain stands means rfl rfl
  | constant means constant =>
      exact advances_plain stands means (Action.perform?_constant constant frame) rfl

/-- The routine has the local variables of all names in scope. -/
theorem Slots.Valid.hasSlot
    {name : String}
    {found : Local}
    (valid : slots.Valid)
    (room : slots.next ≤ routine.maxLocals.toNat)
    (resolved : slots.resolve? name = some found) :
    found.slot.toNat < routine.maxLocals.toNat :=
  (valid.slot_lt found (mem_of_resolve? resolved).1).trans_le room

/-- The code of an expression does what the expression means. -/
theorem ExpressionTree.performs
    {e : Expression}
    {type : StaticType}
    {tree : Tree}
    {address : Nat}
    {frame : Frame}
    {memory : Memory}
    (code : ExpressionTree routine.pool slots e type tree)
    (valid : slots.Valid)
    (room : slots.next ≤ routine.maxLocals.toNat)
    (fits : tree.Fits)
    (stands : Stands routine.code address tree.bytes)
    (bear : slots.Bear memory.values frame.locals) :
    Performs routine slots type ⟨address, frame⟩ (address + tree.size) frame.stack memory
      (evaluate e memory) := by
  induction code generalizing address frame memory with
  | @number value position integer order isInteger pushes =>
      have isLiteral : evaluate (.literal (.number value) position) memory =
          .ok (.number integer) memory := by
        rw [evaluate, Wrapping.literal_number_eq_ok_iff.mpr (Number.toInt32?_eq_some.mp isInteger)]
        rfl
      rw [isLiteral]
      exact .of_advances bear rfl (advances_pushes pushes stands frame)
  | string pushes => exact .of_advances bear rfl (advances_pushes pushes stands frame)
  | boolean pushes => exact .of_advances bear rfl (advances_pushes pushes stands frame)
  | @name id found resolved =>
      obtain ⟨ofType, held⟩ := bear resolved
      have loaded : routine.Advances ⟨address, frame⟩ ⟨_, frame.push (frame.locals found.slot)⟩ :=
        advances_plain stands (Order.action?_load found.type.cell found.slot) rfl
          (decide_eq_true (valid.hasSlot room resolved))
      rw [held] at loaded
      exact .of_advances bear ofType loaded
  | @negate argument position tree _ argumentPerforms =>
      obtain ⟨argumentStands, negateStands⟩ := Tree.stands_seq.mp stands
      refine (argumentPerforms fits.1 argumentStands bear).bind ?_
      intro value later locals ofType laterBear
      cases value <;> cases ofType
      rename_i value
      have isNegated : outcome (Wrapping.negated (.number value)) later =
          .ok (.number (-value)) later := by
        rw [Wrapping.negated, Wrapping.wrap_neg]
        rfl
      rw [isNegated, Tree.size, ← Nat.add_assoc]
      exact .of_advances laterBear rfl (advances_plain negateStands rfl rfl rfl)
  | binary _ _ operation leftPerforms rightPerforms =>
      obtain ⟨leftStands, restStands⟩ := Tree.stands_seq.mp stands
      obtain ⟨rightStands, operationStands⟩ := Tree.stands_seq.mp restStands
      refine (leftPerforms fits.1 leftStands bear).bind ?_
      intro left middle leftLocals isLeft leftBear
      refine (rightPerforms fits.2.1 rightStands leftBear).bind ?_
      intro right later rightLocals isRight rightBear
      subst isLeft isRight
      rw [Tree.size, Tree.size, ← Nat.add_assoc, ← Nat.add_assoc]
      exact operation.performs rightBear fits.2.2 operationStands
  | @assign target expression found tree resolved _ valuePerforms =>
      obtain ⟨valueStands, restStands⟩ := Tree.stands_seq.mp stands
      obtain ⟨dupStands, storeStands⟩ := Tree.stands_seq.mp restStands
      refine (valuePerforms fits.1 valueStands bear).bind ?_
      intro value later locals ofType laterBear
      have doubled : routine.Advances
          ⟨_, value.datum :: frame.stack, locals, frame.printed⟩
          ⟨_, value.datum :: value.datum :: frame.stack, locals, frame.printed⟩ :=
        advances_plain dupStands rfl rfl rfl
      have stored : routine.Advances
          ⟨_, value.datum :: value.datum :: frame.stack, locals, frame.printed⟩
          ⟨_, value.datum :: frame.stack, Function.update locals found.slot value.datum,
            frame.printed⟩ :=
        advances_plain storeStands (Order.action?_store found.type.cell found.slot) rfl
          (decide_eq_true (valid.hasSlot room resolved))
      have whole := doubled.trans stored
      rw [Tree.size, Tree.size, ← Nat.add_assoc, ← Nat.add_assoc]
      exact .value ofType whole (.assign valid laterBear resolved ofType)

/-- Where an expression has been compiled, the bytes added compute what the expression
means on 32-bit integers.  They may stand in any routine with the constants and the local
variables of the body, between any other bytes, and run above any stack.  The machine gets
behind them with one more value, of the type of the expression, or comes to a division by
zero if the expression divides by zero.  The local variables change by the assignments
inside the expression. -/
theorem expression_computes
    {e : Expression}
    {type : StaticType}
    {before after : Body}
    (sound : before.Sound)
    (valid : before.slots.Valid)
    (compiled : expression e before = .ok type after) :
    ∃ added, after.code.bytes.toList = before.code.bytes.toList ++ added ∧
      after.Sound ∧ after.slots = before.slots ∧
      ∀ {routine : Routine} {front behind : List UInt8} {frame : Frame}
        {values : String → Scalar},
        routine.code = front ++ added ++ behind →
        after.pool.Extends routine.pool →
        after.slots.next ≤ routine.maxLocals.toNat →
        after.slots.Bear values frame.locals →
        Performs routine after.slots type ⟨front.length, frame⟩
          (front.length + added.length) frame.stack ⟨values, []⟩ (evaluate e ⟨values, []⟩) ∧
        Assigns (targets e) ⟨values, []⟩ (evaluate e ⟨values, []⟩) := by
  obtain ⟨tree, wrote, same, code⟩ := expression_ok sound compiled
  refine ⟨tree.bytes, ?_, wrote.sound, same, ?_⟩
  · rw [wrote.code]
    simp [Code.extend, Code.grow]
  · intro routine front behind frame values isCode extended room bear
    rw [same] at room bear ⊢
    have stands : Stands routine.code front.length tree.bytes := by
      refine ⟨behind, ?_⟩
      rw [isCode, List.append_assoc, List.drop_left]
    refine ⟨?_, Wrapping.evaluate_assigns e _⟩
    rw [Tree.length_bytes]
    exact (code routine.pool extended).performs valid room wrote.fits stands bear

/-- Two variables of integers. -/
def quotientSlots : Slots := ⟨[⟨"a", 1, .int⟩, ⟨"b", 2, .int⟩], 3⟩

/-- The quotient of the variables is assigned to the first of them. -/
def quotient : Expression :=
  .assign ⟨"a", ⟨1, 1⟩⟩ (.binary .divide (.name ⟨"a", ⟨1, 3⟩⟩) (.name ⟨"b", ⟨1, 5⟩⟩) ⟨1, 4⟩)

/-- The body after the quotient. -/
def quotientBody : Body := ⟨.empty, ⟨#[0x1b, 0x1c, 0x6c, 0x59, 0x3c], 1, 2⟩, quotientSlots⟩

/-- The quotient with an instruction in front and one behind. -/
def quotientRoutine : Routine := ⟨[0x00, 0x1b, 0x1c, 0x6c, 0x59, 0x3c, 0x57], .empty, 3, 3⟩

/-- The least integer is divided by a number. -/
def quotientValues (divisor : Int32) (name : String) : Scalar :=
  .number (if name = "a" then Int32.minValue else divisor)

/-- A frame with these variables, and an operand below. -/
def quotientFrame (divisor : Int32) : Frame where
  stack := [.text "below"]
  locals slot := .int (if slot = 1 then Int32.minValue else divisor)
  printed := []

theorem quotientSlots_bear (divisor : Int32) :
    quotientSlots.Bear (quotientValues divisor) (quotientFrame divisor).locals := by
  intro name found resolved
  obtain ⟨present, rfl⟩ := Slots.mem_of_resolve? resolved
  simp only [quotientSlots, List.mem_cons, List.not_mem_nil, or_false] at present
  rcases present with rfl | rfl <;> exact ⟨rfl, rfl⟩

theorem quotientSlots_valid : quotientSlots.Valid where
  slot_pos := by decide
  slot_lt := by decide
  distinct := by decide
  next_pos := by decide
  next_le := by decide

/-- The quotient of the least integer and -1 wraps around, and that by 0 stops the
machine. -/
theorem expression_computes_quotient :
    expression quotient ⟨.empty, .empty, quotientSlots⟩ = .ok .int quotientBody ∧
      Performs quotientRoutine quotientSlots .int ⟨1, quotientFrame (-1)⟩ 6 [.text "below"]
        ⟨quotientValues (-1), []⟩
        (.ok (.number Int32.minValue)
          (Memory.assign ⟨quotientValues (-1), []⟩ "a" (.number Int32.minValue))) ∧
      Performs quotientRoutine quotientSlots .int ⟨1, quotientFrame 0⟩ 6 [.text "below"]
        ⟨quotientValues 0, []⟩ (.error .divisionByZero ⟨quotientValues 0, []⟩) := by
  have compiled : expression quotient ⟨.empty, .empty, quotientSlots⟩ = .ok .int quotientBody :=
    rfl
  have sound : Body.Sound ⟨.empty, .empty, quotientSlots⟩ :=
    ⟨Class.Pool.sound_empty, le_refl (0 : Int)⟩
  obtain ⟨added, isAdded, -, -, computes⟩ :=
    expression_computes sound quotientSlots_valid compiled
  obtain rfl : [0x1b, 0x1c, 0x6c, 0x59, 0x3c] = added := isAdded
  have code : quotientRoutine.code = [0x00] ++ [0x1b, 0x1c, 0x6c, 0x59, 0x3c] ++ [0x57] := rfl
  have performs (divisor : Int32) :=
    (computes code (.refl _) (by decide) (quotientSlots_bear divisor)).1
  exact ⟨compiled, performs (-1), performs 0⟩

end Expressions

end Compile
end Pictogram
