import Pictogram.Proofs.Code.Runs
import Pictogram.Proofs.Code.Statement
import Pictogram.Proofs.Number.Exact
import Pictogram.Proofs.Source.Numbers
import Pictogram.Proofs.Source.Store

/-!
# Expressions as the machine computes them

A run of a program is followed by the machine on its code: the slots of all names hold
the values that the names are bound to, and the same lines are printed.  Numbers are
doubles in the run and 32-bit integers in the machine, so all of them have to be such
integers.
-/

namespace Pictogram
namespace Evaluate

open Pictogram.Class (Pool)
open Pictogram.Compile (StaticType Slots Local Tree ExpressionTree OperationTree Part PartTree
  Runs remaining)
open Pictogram.Machine (Datum Frame Order)

/-- A double that is a 32-bit integer. -/
def IsInteger (number : Float) : Prop := (Number.toInt32? number).isSome

/-- A value as the machine holds it. -/
inductive Represents : Value → StaticType → Datum → Prop
  | number {value : Float} {integer : Int32} :
      Number.toInt32? value = some integer → Represents (.number value) .int (.int integer)
  | boolean (value : Bool) :
      Represents (.boolean value) .boolean (.int (if value then 1 else 0))
  | string (text : String) : Represents (.string text) .string (.text text)

section Operations

variable {pool : Pool} {stack : List Datum} {locals : UInt8 → Datum} {printed : List String}

/-- The machine puts 1 or 0 in the place of two operands that it compares. -/
theorem comparison_runs
    {relation : Machine.Relation}
    {left right : Int32}
    {result : Bool}
    (compared : relation.holds left right = result) :
    Runs pool (.comparison relation) ⟨.int right :: .int left :: stack, locals, printed⟩
      ⟨.int (if result then 1 else 0) :: stack, locals, printed⟩ := by
  have decided : (Machine.Test.compare relation).decide? (.int right :: .int left :: stack) =
      some (result, stack) := by
    rw [← compared]
    rfl
  cases result with
  | true => exact .second decided (.plain rfl rfl)
  | false => exact .first decided (.plain rfl rfl)

theorem arithmetic_runs
    {operation : Machine.Arithmetic}
    {left right result : Int32}
    (applied : operation.result? left right = some result) :
    Runs pool (.plain (.arithmetic operation))
      ⟨.int right :: .int left :: stack, locals, printed⟩
      ⟨.int result :: stack, locals, printed⟩ :=
  .plain rfl (Machine.Action.perform?_arithmetic applied pool stack locals printed)

/-- An operation that has a value does not depend on its position. -/
theorem operation?_of_operate
    {operator : BinaryOperator}
    {left right value : Value}
    {position : Position}
    (operated : operate operator left right position = .ok value) :
    operation? operator left right = some value := by
  unfold operate at operated
  split at operated
  · rename_i found
    cases operated
    exact found
  · cases operated

/-- An operation whose result is a 32-bit integer, if it is a number, gives the same in
the machine. -/
theorem operation_runs
    {operator : BinaryOperator}
    {leftType rightType type : StaticType}
    {tree : Tree}
    {left right value : Value}
    {leftDatum rightDatum : Datum}
    (code : OperationTree operator leftType rightType type tree)
    (isLeft : Represents left leftType leftDatum)
    (isRight : Represents right rightType rightDatum)
    (operated : operation? operator left right = some value)
    (valid : ValidValue IsInteger value) :
    ∃ datum, Represents value type datum ∧
      Runs pool tree ⟨rightDatum :: leftDatum :: stack, locals, printed⟩
        ⟨datum :: stack, locals, printed⟩ := by
  cases code with
  | integer known =>
      cases isLeft with | number isFirst =>
      cases isRight with | number isSecond =>
      cases operator <;> cases known <;> cases operated <;>
        obtain ⟨result, isResult⟩ := Option.isSome_iff_exists.mp valid <;>
        refine ⟨_, .number isResult, arithmetic_runs ?_⟩
      · rw [Number.eq_add isFirst isSecond isResult]
        rfl
      · rw [Number.eq_sub isFirst isSecond isResult]
        rfl
      · rw [Number.eq_mul isFirst isSecond isResult]
        rfl
      · obtain ⟨nonzero, rfl⟩ := Number.eq_div isFirst isSecond isResult
        exact if_neg nonzero
      · obtain ⟨nonzero, rfl⟩ := Number.eq_remainder isFirst isSecond isResult
        exact if_neg nonzero
  | ordering known =>
      cases isLeft with | number isFirst =>
      cases isRight with | number isSecond =>
      cases operator <;> cases known <;> cases operated <;>
        refine ⟨_, .boolean _, comparison_runs ?_⟩
      · exact decide_eq_decide.mpr (Number.lt_iff isFirst isSecond).symm
      · exact decide_eq_decide.mpr (Number.le_iff isFirst isSecond).symm
      · exact decide_eq_decide.mpr (Number.lt_iff isSecond isFirst).symm
      · exact decide_eq_decide.mpr (Number.le_iff isSecond isFirst).symm
  | boolean known =>
      cases isLeft with | boolean first =>
      cases isRight with | boolean second =>
      cases operator <;> cases known <;> cases operated <;>
        refine ⟨_, .boolean _, arithmetic_runs ?_⟩
      · cases first <;> cases second <;> rfl
      · cases first <;> cases second <;> rfl
  | equality notText =>
      cases isLeft with
      | number isFirst =>
          cases isRight with | number isSecond =>
          cases operated
          refine ⟨_, .boolean _, comparison_runs ?_⟩
          exact (Number.beq_eq isFirst isSecond).symm
      | boolean first =>
          cases isRight with | boolean second =>
          cases operated
          refine ⟨_, .boolean _, comparison_runs ?_⟩
          cases first <;> cases second <;> rfl
      | string => exact absurd rfl notText

end Operations

/-- The machine has followed a run: the slots of all names hold their values, and the
same lines are printed. -/
structure Mirrors (view : String → Option Local) (state : State) (frame : Frame) : Prop where
  held : ∀ {name value}, state.store.get? name = some value →
    ∃ found, view name = some found ∧ Represents value found.type (frame.locals found.slot)
  printed : frame.printed = state.printed.toList

/-- Slots handed out for no name in scope hold what they held before. -/
def Keeps (slots : Slots) (before after : UInt8 → Datum) : Prop :=
  ∀ slot : UInt8, slot.toNat < slots.next →
    (∀ {name found}, slots.resolve? name = some found → found.slot ≠ slot) →
    after slot = before slot

section Keeps

variable {slots later : Slots} {first second third : UInt8 → Datum}

theorem Keeps.refl (slots : Slots) (locals : UInt8 → Datum) : Keeps slots locals locals :=
  fun _ _ _ => rfl

/-- What is kept with a later scope is kept with an earlier one. -/
theorem Keeps.trans
    (kept : Keeps slots first second)
    (keptLater : Keeps later second third)
    (grows : slots.Grows later) :
    Keeps slots first third := by
  intro slot handedOut nameless
  refine (keptLater slot (handedOut.trans_le grows.next_le) ?_).trans (kept slot handedOut nameless)
  intro name found resolved same
  cases before : slots.resolve? name with
  | none =>
      have fresh := grows.fresh before resolved
      rw [same] at fresh
      omega
  | some known =>
      have still := grows.kept before
      rw [resolved] at still
      obtain rfl := Option.some.inj still
      exact nameless before same

/-- A store into the slot of a name in scope leaves the slots alone that no name stands for. -/
theorem Keeps.store
    {name : String}
    {found : Local}
    (resolved : slots.resolve? name = some found)
    (locals : UInt8 → Datum)
    (datum : Datum) :
    Keeps slots locals (Function.update locals found.slot datum) :=
  fun _ _ nameless => Function.update_of_ne (nameless resolved).symm _ _

/-- A slot that is handed out later may be written to. -/
theorem Keeps.store_new
    {slot : UInt8}
    (new : slots.next ≤ slot.toNat)
    (locals : UInt8 → Datum)
    (datum : Datum) :
    Keeps slots locals (Function.update locals slot datum) := by
  intro other handedOut _
  refine Function.update_of_ne ?_ _ _
  rintro rfl
  omega

end Keeps

section Mirrors

variable {view : String → Option Local} {state : State} {frame : Frame} {name : String}
  {value : Value} {found : Local} {datum : Datum}

/-- The stack does not matter. -/
theorem Mirrors.stack (mirrors : Mirrors view state frame) (stack : List Datum) :
    Mirrors view state { frame with stack } := ⟨mirrors.held, mirrors.printed⟩

/-- A slot that none of the names bound stands for may hold anything. -/
theorem Mirrors.elsewhere
    {slot : UInt8}
    (mirrors : Mirrors view state frame)
    (nameless : ∀ {name found}, view name = some found → found.slot ≠ slot)
    (stack : List Datum)
    (datum : Datum) :
    Mirrors view state ⟨stack, Function.update frame.locals slot datum, frame.printed⟩ where
  held := by
    intro name value read
    obtain ⟨found, viewed, is⟩ := mirrors.held read
    refine ⟨found, viewed, ?_⟩
    show Represents value found.type (Function.update frame.locals slot datum found.slot)
    rwa [Function.update_of_ne (nameless viewed)]
  printed := mirrors.printed

/-- A name and its slot are given a value. -/
theorem Mirrors.bind
    {slots : Slots}
    {store : Store}
    (mirrors : Mirrors view state frame)
    (seen : slots.View view)
    (viewed : view name = some found)
    (is : Represents value found.type datum)
    (reads : ∀ other, store.get? other = if other = name then some value
      else state.store.get? other)
    (stack : List Datum) :
    Mirrors view { state with store }
      ⟨stack, Function.update frame.locals found.slot datum, frame.printed⟩ where
  held := by
    intro other otherValue read
    show ∃ otherFound : Local, view other = some otherFound ∧ Represents otherValue
      otherFound.type (Function.update frame.locals found.slot datum otherFound.slot)
    have readAfter := reads other
    rw [read] at readAfter
    by_cases same : other = name
    · rw [if_pos same] at readAfter
      obtain rfl := Option.some.inj readAfter
      refine ⟨found, same ▸ viewed, ?_⟩
      rwa [Function.update_self]
    · rw [if_neg same] at readAfter
      obtain ⟨otherFound, otherViewed, otherIs⟩ := mirrors.held readAfter.symm
      refine ⟨otherFound, otherViewed, ?_⟩
      rwa [Function.update_of_ne fun shared => same (seen.apart otherViewed viewed shared)]
  printed := mirrors.printed

end Mirrors

section Expressions

variable {pool : Pool} {slots : Slots} {view : String → Option Local} {state last : State}
  {frame : Frame}

theorem store_runs
    (cell : Machine.Cell)
    (slot : UInt8)
    (datum : Datum)
    (stack : List Datum)
    (locals : UInt8 → Datum)
    (printed : List String) :
    Runs pool (.plain (.store cell slot)) ⟨datum :: stack, locals, printed⟩
      ⟨stack, Function.update locals slot datum, printed⟩ :=
  .plain (Order.action?_store cell slot) rfl

theorem load_runs (cell : Machine.Cell) (slot : UInt8) (frame : Frame) :
    Runs pool (.plain (.load cell slot)) frame (frame.push (frame.locals slot)) :=
  .plain (Order.action?_load cell slot) rfl

theorem pushes_runs {order : Order} {datum : Datum} (pushes : order.Pushes pool datum)
    (frame : Frame) :
    Runs pool (.plain order) frame (frame.push datum) := by
  cases pushes with
  | operand means => exact .plain means rfl
  | constant means stands => exact .plain means (Machine.Action.perform?_constant stands frame)

/-- What the machine has done for an expression: one value more is on the stack. -/
structure Computed
    (slots : Slots)
    (view : String → Option Local)
    (frame : Frame)
    (value : Value)
    (type : StaticType)
    (last : State)
    (next : Frame) : Prop where
  mirrors : Mirrors view last next
  keeps : Keeps slots frame.locals next.locals
  pushed : ∃ datum, Represents value type datum ∧ next.stack = datum :: frame.stack

/-- The machine follows the evaluation of an expression. -/
theorem evaluate_runs
    {e : Expression}
    {type : StaticType}
    {tree : Tree}
    {value : Value}
    (code : ExpressionTree pool slots e type tree)
    (seen : slots.View view)
    (mirrors : Mirrors view state frame)
    (valid : ValidExpression IsInteger e state)
    (ran : evaluate e state = .ok value last) :
    ∃ next, Runs pool tree frame next ∧ Computed slots view frame value type last next := by
  induction code generalizing state last frame value with
  | number isInteger pushes =>
      obtain ⟨rfl, rfl⟩ := Stateful.pure_eq_ok.mp ran
      exact ⟨_, pushes_runs pushes frame, mirrors.stack _, .refl _ _, _, .number isInteger, rfl⟩
  | string pushes =>
      obtain ⟨rfl, rfl⟩ := Stateful.pure_eq_ok.mp ran
      exact ⟨_, pushes_runs pushes frame, mirrors.stack _, .refl _ _, _, .string _, rfl⟩
  | boolean pushes =>
      obtain ⟨rfl, rfl⟩ := Stateful.pure_eq_ok.mp ran
      exact ⟨_, pushes_runs pushes frame, mirrors.stack _, .refl _ _, _, .boolean _, rfl⟩
  | name resolved =>
      obtain ⟨read, rfl⟩ := lookUp_ok ran
      obtain ⟨found, viewed, is⟩ := mirrors.held read
      rw [seen.known resolved] at viewed
      obtain rfl := Option.some.inj viewed
      exact ⟨_, load_runs _ _ frame, mirrors.stack _, .refl _ _, _, is, rfl⟩
  | negate _ argumentRuns =>
      obtain ⟨validArgument, validResult⟩ := valid
      have isValid := validResult _ _ ran
      obtain ⟨operand, middle, evaluated, ran⟩ := Stateful.bind_eq_ok.mp ran
      obtain ⟨negation, rfl⟩ := outcome_ok ran
      obtain ⟨⟨_, locals, printed⟩, runs, middleMirrors, keeps, datum, is, rfl⟩ :=
        argumentRuns mirrors validArgument evaluated
      cases is with | number isInteger =>
      cases negation
      obtain ⟨result, isResult⟩ := Option.isSome_iff_exists.mp isValid
      obtain rfl := Number.eq_neg isInteger isResult
      exact ⟨_, .seq runs (.plain rfl rfl), middleMirrors.stack _, keeps, _, .number isResult, rfl⟩
  | binary _ _ operation leftRuns rightRuns =>
      obtain ⟨validLeft, validRight, validResult⟩ := valid
      have isValid := validResult _ _ ran
      obtain ⟨left, middle, leftEvaluated, ran⟩ := Stateful.bind_eq_ok.mp ran
      obtain ⟨right, finished, rightEvaluated, ran⟩ := Stateful.bind_eq_ok.mp ran
      obtain ⟨operated, rfl⟩ := outcome_ok ran
      obtain ⟨⟨_, _, _⟩, leftRun, leftMirrors, leftKeeps, leftDatum, isLeft, rfl⟩ :=
        leftRuns mirrors validLeft leftEvaluated
      obtain ⟨⟨_, locals, printed⟩, rightRun, rightMirrors, rightKeeps, rightDatum, isRight, rfl⟩ :=
        rightRuns leftMirrors (validRight _ _ leftEvaluated) rightEvaluated
      obtain ⟨datum, is, run⟩ :=
        operation_runs operation isLeft isRight (operation?_of_operate operated) isValid
      exact ⟨_, .seq leftRun (.seq rightRun run), rightMirrors.stack _,
        leftKeeps.trans rightKeeps (.refl _), datum, is, rfl⟩
  | @assign target expression found tree resolved _ valueRuns =>
      obtain ⟨_, checked, checking, ran⟩ := Stateful.bind_eq_ok.mp ran
      obtain rfl := requireBound_ok checking
      obtain ⟨assigned, middle, evaluated, ran⟩ := Stateful.bind_eq_ok.mp ran
      obtain ⟨_, stored, assigning, ran⟩ := Stateful.bind_eq_ok.mp ran
      obtain ⟨rfl, rfl⟩ := Stateful.pure_eq_ok.mp ran
      obtain ⟨store, changed, rfl⟩ := assign_ok assigning
      obtain ⟨⟨_, locals, printed⟩, runs, middleMirrors, keeps, datum, is, rfl⟩ :=
        valueRuns mirrors valid evaluated
      refine ⟨_, .seq runs (.seq (.plain rfl rfl) (store_runs found.type.cell found.slot datum
        (datum :: frame.stack) locals printed)), ?_, ?_, datum, is, rfl⟩
      · exact middleMirrors.bind seen (seen.known resolved) is (Store.set?_eq_some changed).2 _
      · exact keeps.trans (.store resolved locals datum) (.refl _)

end Expressions

end Evaluate
end Pictogram
