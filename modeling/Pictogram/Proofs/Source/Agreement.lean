import Pictogram.Proofs.Code.StackMap
import Pictogram.Proofs.Number.Written
import Pictogram.Proofs.Source.Mirrors

/-!
# A program and its class print the same

The machine follows a run of a program statement by statement.  A loop of the code
takes as many rounds as the loop of the program.

A counted loop keeps its end in a slot that no name stands for.  That slot is not
written to by the body of the loop, since code writes only to slots of names in scope
and to new ones.
-/

namespace Pictogram
namespace Evaluate

open Pictogram.Class (Pool)
open Pictogram.Compile
  (StaticType Slots Local Tree ExpressionTree Part PartTree Runs remaining totals)
open Pictogram.Machine (Datum Frame Order)

section Mirrors

variable {view : String → Option Local} {state : State} {frame : Frame} {name : String}

/-- A name that is not bound may stand for any slot. -/
theorem Mirrors.updateView
    (mirrors : Mirrors view state frame)
    (unbound : state.store.get? name = none)
    (other : Option Local) :
    Mirrors (Function.update view name other) state frame where
  held := by
    intro bound value read
    have different : bound ≠ name := by
      rintro rfl
      rw [unbound] at read
      cases read
    rw [Function.update_of_ne different]
    exact mirrors.held read
  printed := mirrors.printed

/-- A name that is not bound any more may stand for any slot. -/
theorem Mirrors.remove
    {other : Option Local}
    (mirrors : Mirrors (Function.update view name other) state frame) :
    Mirrors view { state with store := state.store.remove name } frame where
  held := by
    intro bound value read
    rw [Store.get?_remove] at read
    split at read
    · cases read
    · rename_i different
      have held := mirrors.held read
      rwa [Function.update_of_ne different] at held
  printed := mirrors.printed

end Mirrors

section Values

variable {value : Value} {type : StaticType} {datum : Datum}

/-- What the machine prints for a value is what the run prints. -/
theorem Represents.line?_eq (is : Represents value type datum) :
    Machine.line? (Machine.printLine s!"({type.descriptor})V") datum = some value.describe := by
  cases is with
  | number isInteger =>
      rw [Value.describe, Number.write_whole (Number.toInt32?_eq_some.mp isInteger)]
      rfl
  | boolean value => cases value <;> rfl
  | string text => rfl

/-- A test for zero is taken if the value does not hold as a test. -/
theorem Represents.decide?_zero
    (is : Represents value type datum)
    (notText : type ≠ .string)
    (stack : List Datum) :
    Machine.Test.zero.decide? (datum :: stack) = some (!value.isTruthy, stack) := by
  cases is with
  | @number _ integer isInteger =>
      rw [Number.isTruthy_eq isInteger]
      show some (decide (integer = 0), stack) = _
      simp
  | boolean value => cases value <;> rfl
  | string text => exact absurd rfl notText

end Values

/-- A loop of the code takes the rounds that a loop of the run takes. -/
theorem rounds_runs
    {pool : Pool}
    {tree : Tree}
    {step : Run Bool}
    (invariant : State → Frame → Prop)
    {first : State}
    (round : ∀ {state frame again last}, ComesTo step first state → invariant state frame →
      step state = .ok again last →
      ∃ next, invariant last next ∧
        if again then ∀ {final}, Runs pool tree next final → Runs pool tree frame final
        else Runs pool tree frame next)
    {limit : Nat}
    {state last : State}
    {frame : Frame}
    (comesTo : ComesTo step first state)
    (holds : invariant state frame)
    (ran : rounds step limit state = .ok () last) :
    ∃ next, Runs pool tree frame next ∧ invariant last next := by
  induction limit generalizing state frame with
  | zero => cases ran
  | succ more inductionHypothesis =>
      obtain ⟨again, middle, stepped, ran⟩ := Stateful.bind_eq_ok.mp ran
      obtain ⟨next, nextHolds, runs⟩ := round comesTo holds stepped
      cases again with
      | true =>
          obtain ⟨final, finalRuns, finalHolds⟩ :=
            inductionHypothesis (comesTo.tail stepped) nextHolds ran
          exact ⟨final, runs finalRuns, finalHolds⟩
      | false =>
          obtain ⟨-, rfl⟩ := Stateful.pure_eq_ok.mp ran
          exact ⟨next, runs, nextHolds⟩

/-- What the machine has done for a part of a program. -/
structure Executed
    (slots : Slots)
    (view : String → Option Local)
    (frame : Frame)
    (last : State)
    (next : Frame) : Prop where
  mirrors : Mirrors view last next
  keeps : Keeps slots frame.locals next.locals
  stack : next.stack = frame.stack

/-- One part is executed after another, whose scope is later. -/
theorem Executed.trans
    {slots later : Slots}
    {view : String → Option Local}
    {frame next final : Frame}
    {middle last : State}
    (first : Executed slots view frame middle next)
    (second : Executed later view next last final)
    (grows : slots.Grows later) :
    Executed slots view frame last final where
  mirrors := second.mirrors
  keeps := first.keeps.trans second.keeps grows
  stack := second.stack.trans first.stack

section Statements

variable {pool : Pool} {slots before after : Slots} {view : String → Option Local}
  {state last : State} {frame : Frame} {type : StaticType} {tree : Tree}

/-- The machine decides a test as the run does. -/
theorem holds_runs
    {test : Expression}
    {isTrue : Bool}
    (code : ExpressionTree pool slots test type tree)
    (notText : type ≠ .string)
    (seen : slots.View view)
    (mirrors : Mirrors view state frame)
    (valid : ValidExpression IsInteger test state)
    (ran : holds test state = .ok isTrue last) :
    ∃ middle, Runs pool tree frame middle ∧
      Machine.Test.zero.decide? middle.stack = some (!isTrue, frame.stack) ∧
      Executed slots view frame last { middle with stack := frame.stack } := by
  obtain ⟨value, evaluated, rfl⟩ := holds_ok ran
  obtain ⟨⟨_, locals, printed⟩, runs, middleMirrors, keeps, datum, is, rfl⟩ :=
    evaluate_runs code seen mirrors valid evaluated
  exact ⟨_, runs, is.decide?_zero notText frame.stack, middleMirrors.stack _, keeps, rfl⟩

/-- The machine prints the line that the run does. -/
theorem print_runs
    (limit : Nat)
    (position : Position)
    {argument : Expression}
    {stream method : UInt16}
    (isStream : pool.field? stream = some Machine.standardOutput)
    (code : ExpressionTree pool slots argument type tree)
    (isMethod : pool.method? method = some (Machine.printLine s!"({type.descriptor})V"))
    (seen : slots.View view)
    (mirrors : Mirrors view state frame)
    (valid : ValidExpression IsInteger argument state)
    (ran : execute limit (.print argument position) state = .ok () last) :
    ∃ next, Runs pool (.seq (.plain (.field stream)) (.seq tree (.plain (.call method)))) frame next ∧
      Executed slots view frame last next := by
  rw [execute] at ran
  obtain ⟨value, middle, evaluated, ran⟩ := Stateful.bind_eq_ok.mp ran
  obtain ⟨⟨_, locals, printed⟩, runs, middleMirrors, keeps, datum, is, rfl⟩ :=
    evaluate_runs code seen (mirrors.stack (.stream :: frame.stack)) valid evaluated
  cases ran
  have streams : Runs pool (.plain (.field stream)) frame (frame.push .stream) :=
    .plain (Order.action?_field stream) (if_pos isStream)
  have calls : Runs pool (.plain (.call method)) ⟨datum :: .stream :: frame.stack, locals, printed⟩
      ⟨frame.stack, locals, printed ++ [value.describe]⟩ := by
    refine .plain (Order.action?_call method) ?_
    show (do
      let line ← Machine.line? (← pool.method? method) datum
      return (⟨frame.stack, locals, printed ++ [line]⟩ : Frame)) = _
    rw [isMethod]
    show (do
      let line ← Machine.line? (Machine.printLine s!"({type.descriptor})V") datum
      return (⟨frame.stack, locals, printed ++ [line]⟩ : Frame)) = _
    rw [is.line?_eq]
    rfl
  refine ⟨_, .seq streams (.seq runs calls), ⟨middleMirrors.held, ?_⟩, keeps, rfl⟩
  show printed ++ [value.describe] = (middle.printed.push value.describe).toList
  rw [Array.toList_push, ← middleMirrors.printed]

/-- The machine stores the first value of a variable that the run declares. -/
theorem declare_runs
    (limit : Nat)
    {id : Identifier}
    {value : Expression}
    {slot : UInt8}
    (code : ExpressionTree pool before value type tree)
    (declared : Slots.declare id type before = .ok slot after)
    (seen : after.View view)
    (mirrors : Mirrors view state frame)
    (valid : ValidExpression IsInteger value state)
    (ran : execute limit (.declare id (some value)) state = .ok () last) :
    ∃ next, Runs pool (.seq tree (.plain (.store type.cell slot))) frame next ∧
      Executed before view frame last next := by
  have seenBefore := seen.before (Slots.grows_declare declared)
  obtain ⟨-, slotIs, -, rfl⟩ := Slots.declare_ok declared
  have resolved := Slots.resolve?_declared before ⟨id.name, slot, type⟩ (before.next + 1) id.name
  rw [if_pos rfl] at resolved
  rw [execute] at ran
  obtain ⟨_, checked, checking, ran⟩ := Stateful.bind_eq_ok.mp ran
  obtain rfl := requireFree_ok checking
  obtain ⟨given, middle, evaluated, ran⟩ := Stateful.bind_eq_ok.mp ran
  obtain ⟨store, bound, rfl⟩ := declare_ok ran
  obtain ⟨⟨_, locals, printed⟩, runs, middleMirrors, keeps, datum, is, rfl⟩ :=
    evaluate_runs code seenBefore mirrors valid evaluated
  refine ⟨_, .seq runs (store_runs type.cell slot datum frame.stack locals printed), ?_, ?_, rfl⟩
  · exact middleMirrors.bind seen (seen.known resolved) is (Store.declare?_eq_some bound).2 _
  · exact keeps.trans (.store_new slotIs.ge locals datum) (.refl _)

/-- The machine stores the value that the run assigns. -/
theorem assign_runs
    (limit : Nat)
    {target : Identifier}
    {value : Expression}
    {found : Local}
    (resolved : slots.resolve? target.name = some found)
    (code : ExpressionTree pool slots value found.type tree)
    (seen : slots.View view)
    (mirrors : Mirrors view state frame)
    (valid : ValidExpression IsInteger value state)
    (ran : execute limit (.evaluate (.assign target value)) state = .ok () last) :
    ∃ next, Runs pool (.seq tree (.plain (.store found.type.cell found.slot))) frame next ∧
      Executed slots view frame last next := by
  rw [execute] at ran
  obtain ⟨_, finished, assigned, finishing⟩ := Stateful.bind_eq_ok.mp ran
  obtain ⟨-, rfl⟩ := Stateful.pure_eq_ok.mp finishing
  obtain ⟨_, checked, checking, ran⟩ := Stateful.bind_eq_ok.mp assigned
  obtain rfl := requireBound_ok checking
  obtain ⟨given, middle, evaluated, ran⟩ := Stateful.bind_eq_ok.mp ran
  obtain ⟨_, stored, assigning, ran⟩ := Stateful.bind_eq_ok.mp ran
  obtain ⟨-, rfl⟩ := Stateful.pure_eq_ok.mp ran
  obtain ⟨store, changed, rfl⟩ := assign_ok assigning
  obtain ⟨⟨_, locals, printed⟩, runs, middleMirrors, keeps, datum, is, rfl⟩ :=
    evaluate_runs code seen mirrors valid evaluated
  refine ⟨_, .seq runs (store_runs found.type.cell found.slot datum frame.stack locals printed),
    ?_, ?_, rfl⟩
  · exact middleMirrors.bind seen (seen.known resolved) is (Store.set?_eq_some changed).2 _
  · exact keeps.trans (.store resolved locals datum) (.refl _)

/-- A round of a loop with a test, given what its body does. -/
theorem whileRound_runs
    {test : Expression}
    {testTree bodyTree : Tree}
    {body : Run Unit}
    {again : Bool}
    (code : ExpressionTree pool before test type testTree)
    (notText : type ≠ .string)
    (seen : before.View view)
    (mirrors : Mirrors view state frame)
    (valid : ValidExpression IsInteger test state)
    (bodyRuns : ∀ {middle : State} {frame : Frame}, Mirrors view middle frame →
      holds test state = .ok true middle → body middle = .ok () last →
      ∃ next, Runs pool bodyTree frame next ∧ Executed before view frame last next)
    (ran : whileRound test body state = .ok again last) :
    ∃ next, Executed before view frame last next ∧
      if again then ∀ {final}, Runs pool (.loop testTree .zero bodyTree) next final →
        Runs pool (.loop testTree .zero bodyTree) frame final
      else Runs pool (.loop testTree .zero bodyTree) frame next := by
  obtain ⟨isTrue, middle, tested, ran⟩ := Stateful.bind_eq_ok.mp ran
  obtain ⟨head, headRuns, decided, headMirrors, headKeeps, -⟩ :=
    holds_runs code notText seen mirrors valid tested
  cases isTrue with
  | true =>
      obtain ⟨_, finished, bodyRan, finishing⟩ := Stateful.bind_eq_ok.mp ran
      obtain ⟨rfl, rfl⟩ := Stateful.pure_eq_ok.mp finishing
      obtain ⟨next, runs, nextMirrors, nextKeeps, nextStack⟩ := bodyRuns headMirrors tested bodyRan
      exact ⟨next, ⟨nextMirrors, headKeeps.trans nextKeeps (.refl _), nextStack⟩,
        fun later => .again headRuns decided runs later⟩
  | false =>
      obtain ⟨rfl, rfl⟩ := Stateful.pure_eq_ok.mp ran
      exact ⟨_, ⟨headMirrors, headKeeps, rfl⟩, .done headRuns decided⟩

theorem increment_runs
    {slot : UInt8}
    {value : Int32}
    {stack : List Datum}
    {locals : UInt8 → Datum}
    {printed : List String}
    (held : locals slot = .int value) :
    Runs pool (.plain (.increment slot)) ⟨stack, locals, printed⟩
      ⟨stack, Function.update locals slot (.int (value + 1)), printed⟩ := by
  refine .plain (Order.action?_increment slot) ?_
  simp [Machine.Action.perform?, Machine.Frame.withLocal, held]

/-- What the counter of a loop holds, in the run and in the machine. -/
theorem counter_held
    {counter : Identifier}
    {slot : UInt8}
    {number : Float}
    (viewed : view counter.name = some ⟨counter.name, slot, .int⟩)
    (mirrors : Mirrors view state frame)
    (read : state.store.get? counter.name = some (.number number)) :
    ∃ integer, Number.toInt32? number = some integer ∧ frame.locals slot = .int integer := by
  obtain ⟨found, foundViewed, is⟩ := mirrors.held read
  rw [viewed] at foundViewed
  obtain rfl := Option.some.inj foundViewed
  generalize held : frame.locals slot = datum at is ⊢
  cases is with | number isInteger =>
  exact ⟨_, isInteger, rfl⟩

/-- The code of a counted loop, once its counter and its end are in their slots. -/
def countLoop (slot stopSlot : UInt8) (body : Tree) : Tree :=
  .loop (.seq (.plain (.load .int slot)) (.plain (.load .int stopSlot)))
    (.compare .greaterOrEqual) (.seq body (.plain (.increment slot)))

/-- A round of a counted loop, given what its body does. -/
theorem countRound_runs
    {counter : Identifier}
    {slot stopSlot : UInt8}
    {stop : Float}
    {stopInteger : Int32}
    {bodyTree : Tree}
    {body : Run Unit}
    {again : Bool}
    (resolved : slots.resolve? counter.name = some ⟨counter.name, slot, .int⟩)
    (seen : slots.View view)
    (mirrors : Mirrors view state frame)
    (isStop : Number.toInt32? stop = some stopInteger)
    (stopHeld : frame.locals stopSlot = .int stopInteger)
    (bodyRuns : ∀ {value : Float} {frame : Frame} {finished : State},
      counterValue counter state = .ok value state → value < stop → Mirrors view state frame →
      body state = .ok () finished →
      (∃ next, Runs pool bodyTree frame next ∧ Executed slots view frame finished next) ∧
        After (counterValue counter) (fun value _ => IsInteger (value + 1.0)) finished)
    (ran : countRound counter stop body state = .ok again last) :
    ∃ next, Executed slots view frame last next ∧
      if again then ∀ {final}, Runs pool (countLoop slot stopSlot bodyTree) next final →
        Runs pool (countLoop slot stopSlot bodyTree) frame final
      else Runs pool (countLoop slot stopSlot bodyTree) frame next := by
  have viewed := seen.known resolved
  obtain ⟨value, counted, counting, ran⟩ := Stateful.bind_eq_ok.mp ran
  obtain ⟨read, rfl⟩ := counterValue_ok counting
  obtain ⟨integer, isInteger, held⟩ := counter_held viewed mirrors read
  have loads : Runs pool (.seq (.plain (.load .int slot)) (.plain (.load .int stopSlot))) frame
      ⟨.int stopInteger :: .int integer :: frame.stack, frame.locals, frame.printed⟩ := by
    rw [← stopHeld, ← held]
    exact .seq (load_runs .int slot frame) (load_runs .int stopSlot (frame.push (frame.locals slot)))
  have decided : (Machine.Test.compare .greaterOrEqual).decide?
      (.int stopInteger :: .int integer :: frame.stack) =
        some (decide (stopInteger ≤ integer), frame.stack) := rfl
  have below := Number.lt_iff isInteger isStop
  by_cases less : value < stop
  · have notReached : decide (stopInteger ≤ integer) = false :=
      decide_eq_false (Int32.not_le.mpr (below.mp less))
    rw [notReached] at decided
    rw [if_pos less] at ran
    obtain ⟨_, finished, bodyRan, ran⟩ := Stateful.bind_eq_ok.mp ran
    obtain ⟨stepped, recounted, recounting, ran⟩ := Stateful.bind_eq_ok.mp ran
    obtain ⟨⟨⟨_, locals, printed⟩, runs, bodyMirrors, keeps, rfl⟩, steps⟩ :=
      bodyRuns counting less (mirrors.stack frame.stack) bodyRan
    have isNext := steps _ _ recounting
    obtain ⟨stepRead, rfl⟩ := counterValue_ok recounting
    obtain ⟨current, isCurrent, currentHeld⟩ := counter_held viewed bodyMirrors stepRead
    obtain ⟨nextInteger, isNextInteger⟩ := Option.isSome_iff_exists.mp isNext
    have one : Number.toInt32? 1.0 = some 1 := rfl
    obtain rfl := Number.eq_add isCurrent one isNextInteger
    cases changed : finished.store.set? counter.name (.number (stepped + 1.0)) with
    | none =>
        rw [Store.set?_eq_none changed] at stepRead
        cases stepRead
    | some store =>
        obtain ⟨_, modified, modifying, ran⟩ := Stateful.bind_eq_ok.mp ran
        obtain ⟨rfl, rfl⟩ := Stateful.pure_eq_ok.mp ran
        cases modifying
        beta_reduce
        rw [changed, Option.getD_some]
        refine ⟨_, ⟨bodyMirrors.bind seen viewed (.number isNextInteger)
          (Store.set?_eq_some changed).2 frame.stack, ?_, rfl⟩, fun later =>
            .again loads decided (.seq runs (increment_runs currentHeld)) later⟩
        exact keeps.trans (.store resolved locals _) (.refl _)
  · have reached : decide (stopInteger ≤ integer) = true :=
      decide_eq_true (Int32.not_lt.mp fun lessInteger => less (below.mpr lessInteger))
    rw [reached] at decided
    rw [if_neg less] at ran
    obtain ⟨rfl, rfl⟩ := Stateful.pure_eq_ok.mp ran
    have ends : Runs pool (countLoop slot stopSlot bodyTree) frame
        { (⟨_, frame.locals, frame.printed⟩ : Frame) with stack := frame.stack } :=
      .done loads decided
    exact ⟨frame, ⟨mirrors, .refl _ _, rfl⟩, ends⟩

/-- A counted loop, given what its body does. -/
theorem count_runs
    (limit : Nat)
    {held inside : Slots}
    {counter : Identifier}
    {start stop : Expression}
    {body : List Statement}
    {slot stopSlot : UInt8}
    {startTree stopTree bodyTree : Tree}
    (startCode : ExpressionTree pool before start .int startTree)
    (stopCode : ExpressionTree pool before stop .int stopTree)
    (hidden : Slots.hidden before = .ok stopSlot held)
    (declared : Slots.declare counter .int held = .ok slot inside)
    (proper : before.Valid)
    (seen : held.View view)
    (seenInside : inside.View
      (Function.update view counter.name (some ⟨counter.name, slot, .int⟩)))
    (bodyRuns : ∀ {state last : State} {frame : Frame},
      Mirrors (Function.update view counter.name (some ⟨counter.name, slot, .int⟩)) state frame →
      ValidStatements IsInteger limit body state → executeAll limit body state = .ok () last →
      ∃ next, Runs pool bodyTree frame next ∧ Executed inside
        (Function.update view counter.name (some ⟨counter.name, slot, .int⟩)) frame last next)
    (mirrors : Mirrors view state frame)
    (valid : ValidStatement IsInteger limit (.count counter start stop body) state)
    (ran : execute limit (.count counter start stop body) state = .ok () last) :
    ∃ next, Runs pool (.seq (.seq startTree (.seq stopTree (.seq (.plain (.store .int stopSlot))
        (.plain (.store .int slot))))) (countLoop slot stopSlot bodyTree)) frame next ∧
      Executed before view frame last next := by
  have heldGrows := Slots.grows_hidden hidden
  have insideGrows := Slots.grows_declare declared
  have seenBefore := seen.before heldGrows
  obtain ⟨validStart, validRest⟩ := valid
  rw [execute] at ran
  obtain ⟨first, started, starting, ran⟩ := Stateful.bind_eq_ok.mp ran
  obtain ⟨validStop, validRest⟩ := validRest _ _ starting
  obtain ⟨⟨_, _, _⟩, startRuns, startMirrors, startKeeps, _, isStart, rfl⟩ :=
    evaluate_runs startCode seenBefore mirrors validStart (bound_ok starting)
  obtain ⟨end', stopped, stopping, ran⟩ := Stateful.bind_eq_ok.mp ran
  obtain ⟨⟨_, locals, printed⟩, stopRuns, stopMirrors, stopKeeps, _, isStop, rfl⟩ :=
    evaluate_runs stopCode seenBefore startMirrors validStop (bound_ok stopping)
  obtain ⟨_, entered, entering, ran⟩ := Stateful.bind_eq_ok.mp ran
  have validRounds := validRest _ _ stopping _ _ entering
  cases isStart with | @number _ startInteger isStart =>
  cases isStop with | @number _ stopInteger isStop =>
  obtain ⟨store, bound, rfl⟩ := declare_ok entering
  obtain ⟨unbound, reads⟩ := Store.declare?_eq_some bound
  obtain ⟨round, rounding, rfl⟩ := removing_ok ran
  have nameless {name : String} {found : Local} (viewed : view name = some found) :
      found.slot ≠ stopSlot := seen.slot_ne_hidden proper hidden viewed
  obtain ⟨stopSlotIs, -, heldIs⟩ := Slots.hidden_ok hidden
  obtain ⟨-, slotIs, -, insideIs⟩ := Slots.declare_ok declared
  have resolved : inside.resolve? counter.name = some ⟨counter.name, slot, .int⟩ := by
    rw [insideIs, Slots.resolve?_declared, if_pos rfl]
  have heldNext : held.next = before.next + 1 := by rw [heldIs]
  have insideNext : inside.next = held.next + 1 := by rw [insideIs]
  have slotsDiffer : stopSlot ≠ slot := by
    rintro rfl
    omega
  have namelessInside {name : String} {found : Local}
      (inScope : inside.resolve? name = some found) : found.slot ≠ stopSlot := by
    rw [insideIs, Slots.resolve?_declared] at inScope
    split at inScope
    · obtain rfl := Option.some.inj inScope
      exact slotsDiffer.symm
    · exact nameless (seen.known inScope)
  -- Both numbers are stored, the end first, and the counter is bound.
  have enteredMirrors := ((stopMirrors.elsewhere nameless (.int startInteger :: frame.stack)
    (.int stopInteger)).updateView unbound (some ⟨counter.name, slot, .int⟩)).bind seenInside
      (seenInside.known resolved) (.number isStart) reads frame.stack
  have stored : Runs pool (.seq (.plain (.store .int stopSlot)) (.plain (.store .int slot))) _ _ :=
    .seq (store_runs .int stopSlot (.int stopInteger) (.int startInteger :: frame.stack) locals
      printed) (store_runs .int slot (.int startInteger) frame.stack
        (Function.update locals stopSlot (.int stopInteger)) printed)
  obtain ⟨next, loopRuns, executed⟩ := rounds_runs (Executed inside _ _)
    (fun {state current again later} comesTo executed stepped => by
      have stopHeld : current.locals stopSlot = .int stopInteger := by
        rw [executed.keeps stopSlot (by omega) namelessInside]
        show Function.update (Function.update locals stopSlot _) slot _ stopSlot = _
        rw [Function.update_of_ne slotsDiffer, Function.update_self]
      obtain ⟨next, nextExecuted, runs⟩ := countRound_runs resolved seenInside executed.mirrors
        isStop stopHeld (fun counting less stateMirrors bodyRan =>
          ⟨bodyRuns stateMirrors (validRounds state comesTo _ _ counting less).1 bodyRan,
            (validRounds state comesTo _ _ counting less).2 _ _ bodyRan⟩) stepped
      exact ⟨next, executed.trans nextExecuted (.refl _), runs⟩)
    .refl ⟨enteredMirrors, .refl _ _, rfl⟩ rounding
  refine ⟨next, .seq (.seq startRuns (.seq stopRuns stored)) loopRuns, executed.mirrors.remove, ?_,
    executed.stack⟩
  have storedKeeps := ((startKeeps.trans stopKeeps (.refl _)).trans
    (.store_new stopSlotIs.ge locals (.int stopInteger)) (.refl _)).trans
      (.store_new (by omega : before.next ≤ slot.toNat) _ (.int startInteger)) (.refl _)
  exact storedKeeps.trans executed.keeps (heldGrows.trans insideGrows)

end Statements

/-- The machine follows the run of a part of a program. -/
theorem runPart_runs
    {pool : Pool}
    {before after : Slots}
    {part : Part}
    {tree : Tree}
    {view : String → Option Local}
    {state last : State}
    {frame : Frame}
    {limit : Nat}
    (code : PartTree pool before part after tree)
    (proper : before.Valid)
    (seen : after.View view)
    (initialized : ∀ declaration ∈ part.declarations, declaration.2.isSome)
    (mirrors : Mirrors view state frame)
    (valid : ValidPart IsInteger limit part state)
    (ran : runPart limit part state = .ok () last) :
    ∃ next, Runs pool tree frame next ∧ Executed before view frame last next := by
  induction code generalizing view state last frame with
  | @print _ _ position _ _ _ _ isStream argument isMethod =>
      exact print_runs limit position isStream argument isMethod seen mirrors valid ran
  | declare value declared => exact declare_runs limit value declared seen mirrors valid ran
  | declareZero _ =>
      have given := initialized _ (List.mem_singleton.mpr rfl)
      cases given
  | @onlyIf _ _ _ _ elseIfs alternate _ _ _ test notText body nothing bodyRuns =>
      obtain ⟨validTest, validRest⟩ := valid
      rw [runPart, execute] at ran
      obtain ⟨isTrue, middle, tested, ran⟩ := Stateful.bind_eq_ok.mp ran
      obtain ⟨head, headRuns, decided, headExecuted⟩ :=
        holds_runs test notText (seen.before body.grows) mirrors validTest tested
      cases isTrue with
      | true =>
          obtain ⟨next, runs, executed⟩ := bodyRuns proper seen (fun declaration present =>
            initialized declaration (List.mem_append_left _ present)) headExecuted.mirrors
            (validRest _ _ tested) ran
          exact ⟨next, .seq headRuns (.entered decided runs), headExecuted.trans executed (.refl _)⟩
      | false =>
          change executeClauses limit (executeAll limit alternate) elseIfs middle = _ at ran
          rw [executeClauses_eq, nothing] at ran
          obtain ⟨-, rfl⟩ := Stateful.pure_eq_ok.mp ran
          exact ⟨_, .seq headRuns (.skipped decided), headExecuted⟩
  | @ifElse _ _ _ _ _ elseIfs alternate _ _ _ _ test notText body _ rest bodyRuns restRuns =>
      obtain ⟨validTest, validRest⟩ := valid
      rw [runPart, execute] at ran
      obtain ⟨isTrue, middle, tested, ran⟩ := Stateful.bind_eq_ok.mp ran
      obtain ⟨head, headRuns, decided, headExecuted⟩ :=
        holds_runs test notText (seen.before (body.grows.trans rest.grows)) mirrors validTest tested
      cases isTrue with
      | true =>
          obtain ⟨next, runs, executed⟩ := bodyRuns proper (seen.before rest.grows)
            (fun declaration present => initialized declaration (List.mem_append_left _ present))
            headExecuted.mirrors (validRest _ _ tested) ran
          exact ⟨next, .seq headRuns (.first decided runs), headExecuted.trans executed (.refl _)⟩
      | false =>
          change executeClauses limit (executeAll limit alternate) elseIfs middle = _ at ran
          rw [executeClauses_eq] at ran
          obtain ⟨next, runs, executed⟩ := restRuns (body.grows.valid proper) seen
            (fun declaration present => initialized declaration (List.mem_append_right _
              (Compile.declarationsOf_remaining elseIfs alternate ▸ present)))
            headExecuted.mirrors (validClauses_eq elseIfs alternate middle (validRest _ _ tested)) ran
          exact ⟨next, .seq headRuns (.second decided runs), headExecuted.trans executed body.grows⟩
  | @count before held inside after counter _ _ source _ slot _ _ _ start stop hidden declared body
      bodyRuns =>
      have heldGrows := Slots.grows_hidden hidden
      have insideGrows := Slots.grows_declare declared
      have insideValid := insideGrows.valid (heldGrows.valid proper)
      obtain ⟨free, -, -, insideIs⟩ := Slots.declare_ok declared
      have resolved : inside.resolve? counter.name = some ⟨counter.name, slot, .int⟩ := by
        rw [insideIs, Slots.resolve?_declared, if_pos rfl]
      have seenHeld := seen.before ((insideGrows.trans body.grows).remove free)
      have seenAfter := seen.counter (body.grows.valid insideValid) (body.grows.kept resolved)
      exact count_runs limit start stop hidden declared proper seenHeld
        (seenAfter.before body.grows)
        (fun stateMirrors validBody bodyRan =>
          bodyRuns insideValid seenAfter initialized stateMirrors validBody bodyRan)
        mirrors valid ran
  | @loop _ _ condition source _ _ _ test notText body bodyRuns =>
      refine rounds_runs (Executed _ view frame)
        (fun comesTo executed stepped => ?_) .refl ⟨mirrors, .refl _ _, rfl⟩ ran
      obtain ⟨validTest, validBody⟩ := valid _ comesTo
      obtain ⟨next, nextExecuted, runs⟩ := whileRound_runs test notText (seen.before body.grows)
        executed.mirrors validTest (fun middleMirrors tested bodyRan =>
          bodyRuns proper seen initialized middleMirrors (validBody _ _ tested rfl) bodyRan) stepped
      exact ⟨next, executed.trans nextExecuted (.refl _), runs⟩
  | assign resolved value => exact assign_runs limit resolved value seen mirrors valid ran
  | drop value =>
      rw [runPart, execute] at ran
      obtain ⟨given, finished, evaluated, finishing⟩ := Stateful.bind_eq_ok.mp ran
      obtain ⟨-, rfl⟩ := Stateful.pure_eq_ok.mp finishing
      obtain ⟨⟨_, locals, printed⟩, runs, middleMirrors, keeps, datum, -, rfl⟩ :=
        evaluate_runs value seen mirrors valid evaluated
      exact ⟨⟨frame.stack, locals, printed⟩, .seq runs (.plain rfl rfl), middleMirrors.stack _,
        keeps, rfl⟩
  | nil =>
      obtain ⟨-, rfl⟩ := Stateful.pure_eq_ok.mp ran
      exact ⟨frame, .empty, mirrors, .refl _ _, rfl⟩
  | cons first rest firstRuns restRuns =>
      obtain ⟨validFirst, validRest⟩ := valid
      rw [runPart, executeAll] at ran
      obtain ⟨_, middle, firstRan, restRan⟩ := Stateful.bind_eq_ok.mp ran
      obtain ⟨next, firstRun, firstExecuted⟩ := firstRuns proper (seen.before rest.grows)
        (fun declaration present => initialized declaration (List.mem_append_left _ present))
        mirrors validFirst firstRan
      obtain ⟨final, restRun, restExecuted⟩ := restRuns (first.grows.valid proper) seen
        (fun declaration present => initialized declaration (List.mem_append_right _ present))
        firstExecuted.mirrors (validRest _ _ firstRan) restRan
      exact ⟨final, .seq firstRun restRun, firstExecuted.trans restExecuted first.grows⟩

/-- The machine starts in step with a run on an empty store. -/
theorem mirrors_initial (view : String → Option Local) :
    Mirrors view ⟨.empty, #[]⟩ Machine.Routine.initial.frame where
  held := by
    intro name value read
    cases read
  printed := rfl

/-- A run that does not end early comes to its end with the lines of its report. -/
theorem executeAll_of_halt_eq_none
    {limit : Nat}
    {source : Program}
    (finishes : (program limit .empty source).halt = none) :
    ∃ last, executeAll limit source ⟨.empty, #[]⟩ = .ok () last ∧
      (program limit .empty source).lines = last.printed.toList := by
  unfold program start at finishes ⊢
  cases ran : executeAll limit source ⟨.empty, #[]⟩ with
  | ok value last => exact ⟨last, rfl, rfl⟩
  | error halt last =>
      rw [ran] at finishes
      cases finishes

/-- A program that has a class, all of whose declarations give first values, and whose run
comes to its end with 32-bit integers only: the method `main` of the class returns and has
printed the lines that the run prints. -/
theorem prints_lines_of_run
    {options : Compile.Options}
    {source : Program}
    {file : Class.File}
    {limit : Nat}
    (made : Compile.classFile options source = .ok file)
    (initialized : Initialized source)
    (finishes : (program limit .empty source).halt = none)
    (integers : ValidProgram IsInteger limit source) :
    ∃ routine, file.routine? "main" = some routine ∧
      routine.Prints (program limit .empty source).lines := by
  obtain ⟨routine, tree, slots, isMain, main⟩ := Compile.classFile_ok made
  obtain ⟨last, ran, linesAre⟩ := executeAll_of_halt_eq_none finishes
  have seen := (main.code.grows.valid Slots.valid_empty).view
  obtain ⟨next, runs, mirrors, -, stack⟩ := runPart_runs main.code Slots.valid_empty seen
    initialized (mirrors_initial slots.resolve?) integers ran
  obtain ⟨marks, typed⟩ := main.code.typed 0 []
  have placed : Compile.Placed routine 0 tree :=
    ⟨main.stands.1, main.fits, typed.balanced, main.obeys⟩
  refine ⟨routine, isMain, ⟨0 + tree.size, next⟩, runs.reaches placed ?_, ?_, ?_⟩
  · simp [Machine.Routine.initial, main.maxStack]
  · have empty : next.stack = [] := stack
    have returns := main.stands.2.read? (show Order.leave.action? = some .leave from rfl)
    have low : ¬routine.maxStack.toNat < next.stack.length := by simp [empty]
    rw [Machine.Routine.step, if_neg low, returns]
    exact if_pos empty
  · rw [linesAre]
    exact mirrors.printed

theorem validProgram_totals : ValidProgram IsInteger 5 totals := by
  simp only [ValidProgram, totals, ValidStatements, ValidStatement, ValidExpression, ValidClauses]
  refine ⟨rfl, After.of_ok rfl ⟨⟨rfl, After.of_ok rfl ⟨rfl, After.of_ok rfl (After.of_ok rfl ?_)⟩⟩,
    After.of_ok rfl ⟨?_, After.of_ok rfl ?_⟩⟩⟩
  · -- The first round adds, the second prints, and the counter has then reached its end.
    refine ComesTo.of_step rfl (After.of_ok rfl fun _ => ⟨⟨⟨?_, After.of_ok rfl ?_⟩, ?_⟩, ?_⟩)
      (ComesTo.of_step rfl (After.of_ok rfl fun _ => ⟨⟨⟨?_, After.of_ok rfl ?_⟩, ?_⟩, ?_⟩)
        (ComesTo.of_stop rfl (After.of_ok rfl fun less => ?_)))
    · exact ⟨trivial, After.of_ok rfl rfl, After.of_ok rfl trivial⟩
    · exact (if_pos rfl).mpr ⟨⟨trivial, After.of_ok rfl rfl, After.of_ok rfl rfl⟩,
        After.of_ok rfl trivial⟩
    · exact After.of_ok rfl trivial
    · exact After.of_ok rfl (After.of_ok rfl rfl)
    · exact ⟨trivial, After.of_ok rfl rfl, After.of_ok rfl trivial⟩
    · exact (if_neg (by decide)).mpr ⟨trivial, After.of_ok rfl trivial⟩
    · exact After.of_ok rfl trivial
    · exact After.of_ok rfl (After.of_ok rfl rfl)
    · exact absurd less (by decide)
  · refine ComesTo.of_step rfl ⟨?_, After.of_ok rfl fun _ => ?_⟩
      (ComesTo.of_stop rfl ⟨?_, After.of_ok rfl fun holds => ?_⟩)
    · exact ⟨trivial, After.of_ok rfl rfl, After.of_ok rfl trivial⟩
    · exact ⟨⟨trivial, After.of_ok rfl rfl, After.of_ok rfl rfl⟩, After.of_ok rfl trivial⟩
    · exact ⟨trivial, After.of_ok rfl rfl, After.of_ok rfl trivial⟩
    · cases holds
  · exact ⟨⟨trivial, After.of_ok rfl rfl, After.of_ok rfl rfl⟩, After.of_ok rfl trivial⟩

theorem prints_lines_totals :
    ∃ file routine, Compile.classFile ⟨"Totals", none⟩ totals = .ok file ∧
      (program 5 .empty totals).halt = none ∧ file.routine? "main" = some routine ∧
      routine.Prints ["4", "4"] := by
  obtain ⟨file, made⟩ := Compile.exists_classFile_totals
  have initialized : Initialized totals := by
    unfold Initialized
    decide
  obtain ⟨routine, found, prints⟩ :=
    prints_lines_of_run made initialized rfl validProgram_totals
  exact ⟨file, routine, made, rfl, found, prints⟩

end Evaluate
end Pictogram
