import Pictogram.Compile.Expression
import Pictogram.Proofs.Code.Emit

/-!
# The code of expressions

`ExpressionTree` says which code belongs to an expression, without the generator:
which parts there are, in which order, and what the types are.  It speaks of the
constants of the finished class, in which every index still means what it meant
when the code was written.
-/

namespace Pictogram
namespace Compile

open Pictogram.Class (Pool)
open Machine (Datum Order Test Opcode)

/-- Leaves 1 if the relation holds between the two upper integers, else 0. -/
def Tree.comparison (relation : Machine.Relation) : Tree :=
  .choose (.compare relation) (.plain (.iconst ⟨1, by decide⟩)) (.plain (.iconst ⟨2, by decide⟩))

theorem Tree.comparison_eq (relation : Machine.Relation) :
    Tree.comparison relation =
      .choose (.compare relation) (.plain (.iconst 1)) (.plain (.iconst 2)) := rfl

/-- The instruction for an operator on two integers. -/
def integerOperation? : BinaryOperator → Option Machine.Arithmetic
  | .add => some .add
  | .subtract => some .subtract
  | .multiply => some .multiply
  | .divide => some .divide
  | .modulo => some .remainder
  | _ => none

/-- The relation of an operator that compares by order. -/
def orderRelation? : BinaryOperator → Option Machine.Relation
  | .lessThan => some .less
  | .lessOrEqual => some .lessOrEqual
  | .greaterThan => some .greater
  | .greaterOrEqual => some .greaterOrEqual
  | _ => none

/-- The instruction for an operator on two booleans. -/
def booleanOperation? : BinaryOperator → Option Machine.Arithmetic
  | .and => some .and
  | .or => some .or
  | _ => none

/-- The code of an operator between operands of given types. -/
inductive OperationTree : BinaryOperator → StaticType → StaticType → StaticType → Tree → Prop
  | integer {operator : BinaryOperator} {operation : Machine.Arithmetic} :
      integerOperation? operator = some operation →
      OperationTree operator .int .int .int (.plain (.arithmetic operation))
  | ordering {operator : BinaryOperator} {relation : Machine.Relation} :
      orderRelation? operator = some relation →
      OperationTree operator .int .int .boolean (.comparison relation)
  | boolean {operator : BinaryOperator} {operation : Machine.Arithmetic} :
      booleanOperation? operator = some operation →
      OperationTree operator .boolean .boolean .boolean (.plain (.arithmetic operation))
  | equality {type : StaticType} :
      type ≠ .string →
      OperationTree .equal type type .boolean (.comparison .equal)

/-- The code of an expression, and the type of its value. -/
inductive ExpressionTree (pool : Pool) (slots : Slots) :
    Expression → StaticType → Tree → Prop
  | number {value : Float} {position : Position} {integer : Int32} {order : Order} :
      Number.toInt32? value = some integer →
      order.Pushes pool (.int integer) →
      ExpressionTree pool slots (.literal (.number value) position) .int (.plain order)
  | string {text : String} {position : Position} {order : Order} :
      order.Pushes pool (.text text) →
      ExpressionTree pool slots (.literal (.string text) position) .string (.plain order)
  | boolean {value : Bool} {position : Position} {order : Order} :
      order.Pushes pool (.int (if value then 1 else 0)) →
      ExpressionTree pool slots (.literal (.boolean value) position) .boolean (.plain order)
  | name {id : Identifier} {found : Local} :
      slots.resolve? id.name = some found →
      ExpressionTree pool slots (.name id) found.type
        (.plain (.load found.type.cell found.slot))
  | negate {argument : Expression} {position : Position} {tree : Tree} :
      ExpressionTree pool slots argument .int tree →
      ExpressionTree pool slots (.negate argument position) .int (.seq tree (.plain .negate))
  | binary {operator : BinaryOperator} {left right : Expression} {position : Position}
      {leftType rightType type : StaticType} {leftTree rightTree tree : Tree} :
      ExpressionTree pool slots left leftType leftTree →
      ExpressionTree pool slots right rightType rightTree →
      OperationTree operator leftType rightType type tree →
      ExpressionTree pool slots (.binary operator left right position) type
        (.seq leftTree (.seq rightTree tree))
  | assign {target : Identifier} {value : Expression} {found : Local} {tree : Tree} :
      slots.resolve? target.name = some found →
      ExpressionTree pool slots value found.type tree →
      ExpressionTree pool slots (.assign target value) found.type
        (.seq tree (.seq (.plain .dup) (.plain (.store found.type.cell found.slot))))

/-- An operator leaves one operand of two. -/
theorem OperationTree.effect
    {operator : BinaryOperator}
    {left right type : StaticType}
    {tree : Tree}
    (code : OperationTree operator left right type tree) :
    tree.effect = -1 := by
  cases code <;> rfl

/-- The code of an expression leaves one value. -/
theorem ExpressionTree.effect
    {pool : Pool}
    {slots : Slots}
    {e : Expression}
    {type : StaticType}
    {tree : Tree}
    (code : ExpressionTree pool slots e type tree) :
    tree.effect = 1 := by
  induction code with
  | number _ pushes => exact pushes.change_eq
  | string pushes => exact pushes.change_eq
  | boolean pushes => exact pushes.change_eq
  | name _ => exact Order.change_load _ _
  | negate _ argumentEffect => simp [Tree.effect, argumentEffect]
  | binary _ _ operation leftEffect rightEffect =>
      simp [Tree.effect, leftEffect, rightEffect, operation.effect]
  | assign _ _ valueEffect => simp [Tree.effect, valueEffect]

/-! ## What the generator writes -/

variable {before after : Body}

theorem pushInt_zero : Emit.pushInt 0 = Emit.instruction (.iconst 1) := rfl

theorem pushInt_one : Emit.pushInt 1 = Emit.instruction (.iconst 2) := rfl

/-- A comparison is written as a choice between 1 and 0. -/
theorem comparison_ok
    {relation : Machine.Relation}
    (sound : before.Sound)
    (done : comparison relation before = .ok () after) :
    before.Wrote (.comparison relation) after ∧ after.slots = before.slots := by
  unfold comparison at done
  rw [pushInt_zero, pushInt_one] at done
  obtain ⟨whenTrue, branched, jumped, done⟩ := Stateful.bind_eq_ok.mp done
  obtain ⟨rfl, rfl⟩ := Emit.jump_ok (.compare relation) jumped
  obtain ⟨_, zeroed, pushed, done⟩ := Stateful.bind_eq_ok.mp done
  obtain rfl := Emit.write_ok pushed
  obtain ⟨finished, ended, jumped, done⟩ := Stateful.bind_eq_ok.mp done
  obtain ⟨rfl, rfl⟩ := Emit.jump_ok .always jumped
  obtain ⟨_, patched, patching, done⟩ := Stateful.bind_eq_ok.mp done
  obtain ⟨-, -, rfl⟩ := Emit.patch_ok patching
  obtain ⟨_, adjusted, adjusting, done⟩ := Stateful.bind_eq_ok.mp done
  obtain rfl := Emit.write_ok adjusting
  obtain ⟨_, oned, pushed, done⟩ := Stateful.bind_eq_ok.mp done
  obtain rfl := Emit.write_ok pushed
  obtain ⟨-, -, rfl⟩ := Emit.patch_ok done
  refine ⟨⟨⟨sound.pool, .refl _⟩, ?_, ?_⟩, rfl⟩
  · have bytes := Code.redirect_choose before.code.bytes (.compare relation)
      (.plain (.iconst 1)) (.plain (.iconst 2))
    have settled := sound.settled
    simp only [Code.Settled] at settled
    simp only [Tree.comparison_eq, Code.extend, Code.grow, Code.emit, Code.append, Code.adjust,
      Code.position, ← bytes, Opcode.stackEffect?, Code.mk.injEq]
    refine ⟨?_, ?_, ?_⟩
    · simp [Tree.size, Order.size, Order.bytes, Order.iconst]
    · simp [Tree.effect, Test.change]
      omega
    · simp [Tree.peak, Test.change]
      omega
  · simp [Tree.comparison_eq, Tree.Fits, Tree.size, Order.size, Order.bytes, Order.iconst]

/-- Operands that are accepted have the type that is wanted. -/
theorem Operands.require_ok
    {operands : Operands}
    {expected : StaticType}
    (done : operands.require expected before = .ok () after) :
    operands.left = expected ∧ operands.right = expected ∧ before = after := by
  unfold Operands.require at done
  split at done
  · exact absurd done Stateful.throw_ne_ok
  · rename_i left
    split at done
    · exact absurd done Stateful.throw_ne_ok
    · rename_i right
      obtain ⟨-, rfl⟩ := Stateful.pure_eq_ok.mp done
      exact ⟨not_not.mp left, not_not.mp right, rfl⟩

/-- Operands that are accepted are not both texts. -/
theorem Operands.refuseTexts_ok
    {operands : Operands}
    {construct : Unsupported}
    (done : operands.refuseTexts construct before = .ok () after) :
    ¬(operands.left = .string ∧ operands.right = .string) ∧ before = after := by
  unfold Operands.refuseTexts at done
  split at done
  · exact absurd done Stateful.throw_ne_ok
  · rename_i notTexts
    obtain ⟨-, rfl⟩ := Stateful.pure_eq_ok.mp done
    exact ⟨notTexts, rfl⟩

section Operations

variable {operands : Operands} {operator : BinaryOperator} {type : StaticType}
  (sound : before.Sound)

include sound

/-- An operation on operands of one type, which the machine has an instruction
for. -/
theorem instruction_of_require_ok
    {operation : Machine.Arithmetic}
    {expected : StaticType}
    (done : (do
      operands.require expected
      Emit.instruction (.arithmetic operation)
      return expected : Emit StaticType) before = .ok type after) :
    operands.left = expected ∧ operands.right = expected ∧ type = expected ∧
      before.Wrote (.plain (.arithmetic operation)) after ∧ after.slots = before.slots := by
  obtain ⟨_, checked, checking, done⟩ := Stateful.bind_eq_ok.mp done
  obtain ⟨left, right, rfl⟩ := Operands.require_ok checking
  obtain ⟨_, written, writing, done⟩ := Stateful.bind_eq_ok.mp done
  obtain ⟨rfl, rfl⟩ := Stateful.pure_eq_ok.mp done
  obtain ⟨wrote, same⟩ := Emit.instruction_ok sound rfl rfl writing
  exact ⟨left, right, rfl, wrote, same⟩

theorem arithmetic_ok
    {operation : Machine.Arithmetic}
    (known : integerOperation? operator = some operation)
    (done : arithmetic operands operation before = .ok type after) :
    ∃ tree, OperationTree operator operands.left operands.right type tree ∧
      before.Wrote tree after ∧ after.slots = before.slots := by
  obtain ⟨left, right, rfl, wrote, same⟩ := instruction_of_require_ok sound done
  rw [left, right]
  exact ⟨_, .integer known, wrote, same⟩

theorem logical_ok
    {operation : Machine.Arithmetic}
    (known : booleanOperation? operator = some operation)
    (done : logical operands operation before = .ok type after) :
    ∃ tree, OperationTree operator operands.left operands.right type tree ∧
      before.Wrote tree after ∧ after.slots = before.slots := by
  obtain ⟨left, right, rfl, wrote, same⟩ := instruction_of_require_ok sound done
  rw [left, right]
  exact ⟨_, .boolean known, wrote, same⟩

theorem ordering_ok
    {relation : Machine.Relation}
    (known : orderRelation? operator = some relation)
    (done : ordering operands relation before = .ok type after) :
    ∃ tree, OperationTree operator operands.left operands.right type tree ∧
      before.Wrote tree after ∧ after.slots = before.slots := by
  obtain ⟨_, checked, checking, done⟩ := Stateful.bind_eq_ok.mp done
  obtain ⟨left, right, rfl⟩ := Operands.require_ok checking
  obtain ⟨_, written, writing, done⟩ := Stateful.bind_eq_ok.mp done
  obtain ⟨rfl, rfl⟩ := Stateful.pure_eq_ok.mp done
  obtain ⟨wrote, same⟩ := comparison_ok sound writing
  rw [left, right]
  exact ⟨_, .ordering known, wrote, same⟩

theorem equality_ok
    (done : equality operands before = .ok type after) :
    ∃ tree, OperationTree .equal operands.left operands.right type tree ∧
      before.Wrote tree after ∧ after.slots = before.slots := by
  obtain ⟨_, checked, checking, done⟩ := Stateful.bind_eq_ok.mp done
  obtain ⟨notTexts, rfl⟩ := Operands.refuseTexts_ok checking
  split at done
  · obtain ⟨_, _, thrown, -⟩ := Stateful.bind_eq_ok.mp done
    exact absurd thrown Stateful.throw_ne_ok
  · rename_i sameType
    obtain ⟨_, written, writing, done⟩ := Stateful.bind_eq_ok.mp done
    obtain ⟨rfl, rfl⟩ := Stateful.pure_eq_ok.mp done
    obtain ⟨wrote, same⟩ := comparison_ok sound writing
    have equal : operands.left = operands.right := not_not.mp sameType
    rw [equal] at notTexts ⊢
    exact ⟨_, .equality fun text => notTexts ⟨text, text⟩, wrote, same⟩

/-- The code of an operator, by the family that it belongs to. -/
theorem operation_ok
    (done : operation operands operator before = .ok type after) :
    ∃ tree, OperationTree operator operands.left operands.right type tree ∧
      before.Wrote tree after ∧ after.slots = before.slots := by
  cases operator with
  | add =>
      obtain ⟨_, checked, checking, done⟩ := Stateful.bind_eq_ok.mp done
      obtain ⟨-, rfl⟩ := Operands.refuseTexts_ok checking
      exact arithmetic_ok sound rfl done
  | subtract | multiply | divide | modulo => exact arithmetic_ok sound rfl done
  | equal => exact equality_ok sound done
  | lessThan | lessOrEqual | greaterThan | greaterOrEqual => exact ordering_ok sound rfl done
  | and | or => exact logical_ok sound rfl done

end Operations

/-- A value that is accepted has the type that is wanted. -/
theorem require_ok
    {expected : StaticType}
    {position : Position}
    {code : Emit StaticType}
    (done : require expected position code before = .ok () after) :
    code before = .ok expected after := by
  obtain ⟨found, written, writing, done⟩ := Stateful.bind_eq_ok.mp done
  split at done
  · exact absurd done Stateful.throw_ne_ok
  · rename_i sameType
    obtain ⟨-, rfl⟩ := Stateful.pure_eq_ok.mp done
    rw [writing, not_not.mp sameType]

/-- The first body becomes the second by the code of an expression. -/
def Body.Evaluates (before : Body) (e : Expression) (type : StaticType) (after : Body) : Prop :=
  ∃ tree, before.Wrote tree after ∧ after.slots = before.slots ∧
    ∀ pool, after.pool.Extends pool → ExpressionTree pool before.slots e type tree

/-- What is written for a literal is its code. -/
theorem literal_ok
    {value : Literal}
    {position : Position}
    {type : StaticType}
    (sound : before.Sound)
    (done : literal position value before = .ok type after) :
    before.Evaluates (.literal value position) type after := by
  cases value with
  | number value =>
      cases integral : Number.toInt32? value with
      | none =>
          simp only [literal, integral] at done
          obtain ⟨_, _, thrown, -⟩ := Stateful.bind_eq_ok.mp done
          exact absurd thrown Stateful.throw_ne_ok
      | some integer =>
          simp only [literal, integral] at done
          obtain ⟨_, written, writing, done⟩ := Stateful.bind_eq_ok.mp done
          obtain ⟨rfl, rfl⟩ := Stateful.pure_eq_ok.mp done
          obtain ⟨order, wrote, same, pushes⟩ := Emit.pushInt_ok sound writing
          exact ⟨_, wrote, same, fun pool extended => .number integral (pushes pool extended)⟩
  | string text =>
      obtain ⟨index, added, adding, done⟩ := Stateful.bind_eq_ok.mp done
      obtain ⟨built, sameElse⟩ := Emit.onPool_ok adding
      obtain ⟨grown, stands⟩ := Pool.stringRef_ok sound.pool built
      obtain ⟨_, written, writing, done⟩ := Stateful.bind_eq_ok.mp done
      obtain ⟨rfl, rfl⟩ := Stateful.pure_eq_ok.mp done
      have addedSound : added.Sound := ⟨grown.sound, by rw [sameElse]; exact sound.settled⟩
      obtain ⟨wrote, same⟩ := Emit.loadConstant_ok addedSound writing
      refine ⟨.plain (.constant index), ⟨grown.trans wrote.pool, ?_, trivial⟩, ?_, ?_⟩
      · rw [wrote.code, sameElse]
      · rw [same, sameElse]
      · intro pool extended
        exact .string (.constant (Order.action?_constant index)
          ((wrote.pool.kept.trans extended).ofConstant? stands))
  | boolean value =>
      obtain ⟨_, written, writing, done⟩ := Stateful.bind_eq_ok.mp done
      obtain ⟨rfl, rfl⟩ := Stateful.pure_eq_ok.mp done
      obtain ⟨order, wrote, same, pushes⟩ := Emit.pushInt_ok sound writing
      exact ⟨_, wrote, same, fun pool extended => .boolean (pushes pool extended)⟩
  | null => exact absurd done Stateful.throw_ne_ok

/-- The code of an assignment, given what is written for its value. -/
theorem assignment_ok
    {target : Identifier}
    {value : Expression}
    {position : Position}
    {keep : Bool}
    {type : StaticType}
    (valueEvaluates : ∀ {middle}, expression value before = .ok type middle →
      before.Evaluates value type middle)
    (done : assignment target (expression value) position keep before = .ok type after) :
    ∃ found tree, before.slots.resolve? target.name = some found ∧ found.type = type ∧
      before.Wrote (.seq tree (if keep then
          .seq (.plain .dup) (.plain (.store found.type.cell found.slot))
        else .plain (.store found.type.cell found.slot))) after ∧
      after.slots = before.slots ∧
      ∀ pool, after.pool.Extends pool → ExpressionTree pool before.slots value type tree := by
  obtain ⟨found, resolved, resolving, done⟩ := Stateful.bind_eq_ok.mp done
  obtain ⟨known, rfl⟩ := Emit.resolve_ok resolving
  obtain ⟨_, valued, valuing, done⟩ := Stateful.bind_eq_ok.mp done
  have ofType : found.type = type := by
    cases keep with
    | true =>
        obtain ⟨_, doubled, doubling, done⟩ := Stateful.bind_eq_ok.mp done
        obtain ⟨_, stored, storing, done⟩ := Stateful.bind_eq_ok.mp done
        exact (Stateful.pure_eq_ok.mp done).1
    | false =>
        obtain ⟨_, stored, storing, done⟩ := Stateful.bind_eq_ok.mp done
        exact (Stateful.pure_eq_ok.mp done).1
  subst ofType
  obtain ⟨tree, wrote, same, code⟩ := valueEvaluates (require_ok valuing)
  cases keep with
  | true =>
      obtain ⟨_, doubled, doubling, done⟩ := Stateful.bind_eq_ok.mp done
      obtain ⟨doubleWrote, doubleSame⟩ := Emit.instruction_ok wrote.sound rfl rfl doubling
      obtain ⟨_, stored, storing, done⟩ := Stateful.bind_eq_ok.mp done
      obtain ⟨-, rfl⟩ := Stateful.pure_eq_ok.mp done
      obtain ⟨storeWrote, storeSame⟩ := Emit.store_ok doubleWrote.sound storing
      refine ⟨found, tree, known, rfl, wrote.seq (doubleWrote.seq storeWrote), ?_, ?_⟩
      · rw [storeSame, doubleSame, same]
      · intro pool extended
        exact code pool (doubleWrote.pool.kept.trans (storeWrote.pool.kept.trans extended))
  | false =>
      obtain ⟨_, stored, storing, done⟩ := Stateful.bind_eq_ok.mp done
      obtain ⟨-, rfl⟩ := Stateful.pure_eq_ok.mp done
      obtain ⟨storeWrote, storeSame⟩ := Emit.store_ok wrote.sound storing
      refine ⟨found, tree, known, rfl, wrote.seq storeWrote, ?_, ?_⟩
      · rw [storeSame, same]
      · intro pool extended
        exact code pool (storeWrote.pool.kept.trans extended)

/-- The generator writes the code that belongs to an expression. -/
theorem expression_ok
    {e : Expression}
    {type : StaticType}
    (sound : before.Sound)
    (done : expression e before = .ok type after) :
    before.Evaluates e type after := by
  induction e generalizing before after type with
  | literal value position => exact literal_ok sound done
  | name id =>
      obtain ⟨found, resolved, resolving, done⟩ := Stateful.bind_eq_ok.mp done
      obtain ⟨known, rfl⟩ := Emit.resolve_ok resolving
      obtain ⟨_, loaded, loading, done⟩ := Stateful.bind_eq_ok.mp done
      obtain ⟨rfl, rfl⟩ := Stateful.pure_eq_ok.mp done
      obtain ⟨wrote, same⟩ := Emit.load_ok sound loading
      exact ⟨_, wrote, same, fun pool _ => .name known⟩
  | negate argument position argumentHypothesis =>
      obtain ⟨_, valued, valuing, done⟩ := Stateful.bind_eq_ok.mp done
      obtain ⟨tree, wrote, same, code⟩ := argumentHypothesis sound (require_ok valuing)
      obtain ⟨_, negated, negating, done⟩ := Stateful.bind_eq_ok.mp done
      obtain ⟨rfl, rfl⟩ := Stateful.pure_eq_ok.mp done
      obtain ⟨negateWrote, negateSame⟩ := Emit.instruction_ok wrote.sound rfl rfl negating
      refine ⟨_, wrote.seq negateWrote, negateSame.trans same, fun pool extended => ?_⟩
      exact .negate (code pool (negateWrote.pool.kept.trans extended))
  | binary operator left right position leftHypothesis rightHypothesis =>
      obtain ⟨leftType, lefted, lefting, done⟩ := Stateful.bind_eq_ok.mp done
      obtain ⟨leftTree, leftWrote, leftSame, leftCode⟩ := leftHypothesis sound lefting
      obtain ⟨rightType, righted, righting, done⟩ := Stateful.bind_eq_ok.mp done
      obtain ⟨rightTree, rightWrote, rightSame, rightCode⟩ :=
        rightHypothesis leftWrote.sound righting
      obtain ⟨tree, code, wrote, same⟩ := operation_ok rightWrote.sound done
      refine ⟨_, leftWrote.seq (rightWrote.seq wrote), ?_, fun pool extended => ?_⟩
      · rw [same, rightSame, leftSame]
      · have rightExtended := wrote.pool.kept.trans extended
        have leftExtended := rightWrote.pool.kept.trans rightExtended
        exact .binary (leftCode pool leftExtended)
          (leftSame ▸ rightCode pool rightExtended) code
  | assign target value valueHypothesis =>
      obtain ⟨found, tree, known, rfl, wrote, same, code⟩ :=
        assignment_ok (fun valued => valueHypothesis sound valued) done
      exact ⟨_, wrote, same, fun pool extended => .assign known (code pool extended)⟩

end Compile
end Pictogram
