import Pictogram.Proofs.Code.Access
import Pictogram.Proofs.Code.Layout

/-!
# Running a tree

A tree is run part by part, without addresses.  Where its bytes stand in a method
that has room for its operands and its local variables, the machine does the same
step by step.
-/

namespace Pictogram

namespace Machine

open Pictogram.Class (Pool)

/-- A test that is decided changes the height of the stack as it says. -/
theorem Test.length_decide?
    {test : Test}
    {stack next : List Datum}
    {taken : Bool}
    (decided : test.decide? stack = some (taken, next)) :
    (next.length : Int) = stack.length + test.change := by
  unfold decide? at decided
  grind [change]

/-- An action that is performed changes the height of the stack as it says. -/
theorem Action.length_perform?
    {pool : Pool}
    {action : Action}
    {frame next : Frame}
    (performed : action.perform? pool frame = some next) :
    (next.stack.length : Int) = frame.stack.length + action.change := by
  unfold perform? at performed
  split at performed <;>
    grind [change, Frame.push, Frame.withStack, Frame.withLocal, Option.map_eq_some_iff,
      Option.bind_eq_some_iff]

/-- Arithmetic puts its result in the place of its two operands. -/
theorem Action.perform?_arithmetic
    {operation : Arithmetic}
    {left right result : Int32}
    (applied : operation.result? left right = some result)
    (pool : Pool)
    (stack : List Datum)
    (locals : UInt8 → Datum)
    (printed : List String) :
    (Action.arithmetic operation).perform? pool
        ⟨.int right :: .int left :: stack, locals, printed⟩ =
      some ⟨.int result :: stack, locals, printed⟩ := by
  show (operation.result? left right).map _ = _
  rw [applied]
  rfl

/-- A constant that is loaded is pushed as its datum. -/
theorem Action.perform?_constant
    {pool : Pool}
    {index : UInt16}
    {datum : Datum}
    (constant : Datum.ofConstant? pool index = some datum)
    (frame : Frame) :
    (Action.constant index).perform? pool frame = some (frame.push datum) := by
  show (Datum.ofConstant? pool index).map frame.push = _
  rw [constant]
  rfl

end Machine

namespace Compile

open Pictogram.Class (Pool)
open Machine (Action Order Test Frame Routine State)

/-- A tree turns a frame into another. -/
inductive Runs (pool : Pool) : Tree → Frame → Frame → Prop
  | empty {frame : Frame} : Runs pool .empty frame frame
  | plain {order : Order} {action : Action} {frame next : Frame} :
      order.action? = some action →
      action.perform? pool frame = some next →
      Runs pool (.plain order) frame next
  | seq {first second : Tree} {frame middle next : Frame} :
      Runs pool first frame middle →
      Runs pool second middle next →
      Runs pool (.seq first second) frame next
  | skipped {test : Test} {body : Tree} {frame : Frame} {stack : List Machine.Datum} :
      test.decide? frame.stack = some (true, stack) →
      Runs pool (.skip test body) frame { frame with stack }
  | entered {test : Test} {body : Tree} {frame next : Frame} {stack : List Machine.Datum} :
      test.decide? frame.stack = some (false, stack) →
      Runs pool body { frame with stack } next →
      Runs pool (.skip test body) frame next
  | first {test : Test} {body rest : Tree} {frame next : Frame} {stack : List Machine.Datum} :
      test.decide? frame.stack = some (false, stack) →
      Runs pool body { frame with stack } next →
      Runs pool (.choose test body rest) frame next
  | second {test : Test} {body rest : Tree} {frame next : Frame} {stack : List Machine.Datum} :
      test.decide? frame.stack = some (true, stack) →
      Runs pool rest { frame with stack } next →
      Runs pool (.choose test body rest) frame next
  | done {head : Tree} {test : Test} {body : Tree} {frame middle : Frame}
      {stack : List Machine.Datum} :
      Runs pool head frame middle →
      test.decide? middle.stack = some (true, stack) →
      Runs pool (.loop head test body) frame { middle with stack }
  | again {head : Tree} {test : Test} {body : Tree} {frame middle round next : Frame}
      {stack : List Machine.Datum} :
      Runs pool head frame middle →
      test.decide? middle.stack = some (false, stack) →
      Runs pool body { middle with stack } round →
      Runs pool (.loop head test body) round next →
      Runs pool (.loop head test body) frame next

/-- A balanced tree changes the height of the stack by its effect, whichever way it runs. -/
theorem Runs.length_eq
    {pool : Pool}
    {tree : Tree}
    {frame next : Frame}
    (runs : Runs pool tree frame next)
    (balanced : tree.Balanced) :
    (next.stack.length : Int) = frame.stack.length + tree.effect := by
  induction runs with
  | empty => simp [Tree.effect]
  | plain means performed =>
      rw [Tree.effect, Order.change_eq means]
      exact Action.length_perform? performed
  | seq _ _ firstLength secondLength =>
      rw [secondLength balanced.2, firstLength balanced.1, Tree.effect, Int.add_assoc]
  | skipped decided => exact Test.length_decide? decided
  | entered decided _ bodyLength =>
      have tested := Test.length_decide? decided
      have bodied := bodyLength balanced.1
      have flat := balanced.2
      simp only [Tree.effect] at *
      omega
  | first decided _ bodyLength =>
      have tested := Test.length_decide? decided
      have bodied := bodyLength balanced.1
      have same := balanced.2.2
      simp only [Tree.effect] at *
      omega
  | second decided _ restLength =>
      have tested := Test.length_decide? decided
      have rested := restLength balanced.2.1
      simp only [Tree.effect] at *
      omega
  | done _ decided headLength =>
      have headed := headLength balanced.1
      have tested := Test.length_decide? decided
      simp only [Tree.effect] at *
      omega
  | again _ decided _ _ headLength bodyLength loopLength =>
      have headed := headLength balanced.1
      have tested := Test.length_decide? decided
      have bodied := bodyLength balanced.2.1
      have looped := loopLength balanced
      have flat := balanced.2.2
      simp only [Tree.effect] at *
      omega

section Reaches

variable {routine : Routine} {address : Nat} {frame next : Frame}

/-- The machine performs the action that stands at its address and goes on behind it. -/
theorem advance_plain
    {order : Order}
    {action : Action}
    (stands : Stands routine.code address order.bytes)
    (means : order.action? = some action)
    (performed : action.perform? routine.pool frame = some next)
    (hasLocal : routine.hasLocal action) :
    routine.advance ⟨address, frame⟩ = .next ⟨address + order.size, next⟩ := by
  have performs : routine.perform action order.size ⟨address, frame⟩ =
      .next ⟨address + order.size, next⟩ := by
    cases action with
    | leave | branch _ _ => cases performed
    | _ => simp [Routine.perform, hasLocal, performed]
  rw [Routine.advance, stands.read? means]
  exact performs

/-- The machine goes to the target of a branch that is taken, and on behind one that is not. -/
theorem advance_branch
    {test : Test}
    {target : Nat}
    {taken : Bool}
    {stack : List Machine.Datum}
    (branches : Branches routine.code address test target)
    (decided : test.decide? frame.stack = some (taken, stack)) :
    routine.advance ⟨address, frame⟩ =
      .next ⟨if taken then target else address + 3, { frame with stack }⟩ := by
  have goes : (address : Int) + (if taken then (target : Int) - address else (3 : Nat)) =
      ((if taken then target else address + 3 : Nat) : Int) := by
    cases taken <;> simp
  rw [Routine.advance, branches]
  simp only [Routine.perform, decided, goes]
  rfl

/-- An instruction of a tree passes the checks of the machine, if the stack is not too high. -/
theorem step_plain
    {order : Order}
    {action : Action}
    {cells : UInt8 → Machine.Cell}
    (stands : Stands routine.code address order.bytes)
    (means : order.action? = some action)
    (performed : action.perform? routine.pool frame = some next)
    (obeys : (Tree.plain order).Obeys cells routine.maxLocals.toNat)
    (height : frame.stack.length ≤ routine.maxStack.toNat) :
    routine.step ⟨address, frame⟩ = .next ⟨address + order.size, next⟩ := by
  have hasLocal : routine.hasLocal action = true := by
    unfold Routine.hasLocal
    split
    · rename_i slot cell found
      have present : (slot, cell) ∈ (Tree.plain order).accesses := by
        rw [Tree.accesses_plain means, found]
        simp
      simpa using (obeys _ present).1
    · rfl
  rw [Routine.step_eq_advance height]
  exact advance_plain stands means performed hasLocal

/-- A branch passes the checks of the machine, if the stack is not too high. -/
theorem step_branch
    {test : Test}
    {target : Nat}
    {taken : Bool}
    {stack : List Machine.Datum}
    (branches : Branches routine.code address test target)
    (decided : test.decide? frame.stack = some (taken, stack))
    (height : frame.stack.length ≤ routine.maxStack.toNat) :
    routine.step ⟨address, frame⟩ =
      .next ⟨if taken then target else address + 3, { frame with stack }⟩ := by
  rw [Routine.step_eq_advance height]
  exact advance_branch branches decided

/-- A tree stands in a method at an address and is fit to run there. -/
structure Placed (routine : Routine) (address : Nat) (tree : Tree) : Prop where
  stands : Stands routine.code address tree.bytes
  fits : tree.Fits
  balanced : tree.Balanced
  obeys : ∃ cells, tree.Obeys cells routine.maxLocals.toNat

namespace Placed

variable {tree part head body rest first second : Tree} {test : Test}

/-- A part of a placed tree obeys the limits that the tree does. -/
theorem obeys_part
    (placed : Placed routine address tree)
    (subset : part.accesses ⊆ tree.accesses) :
    ∃ cells, part.Obeys cells routine.maxLocals.toNat := by
  obtain ⟨cells, obeys⟩ := placed.obeys
  exact ⟨cells, fun access present => obeys access (subset present)⟩

/-- The second part of a placed sequence is placed behind the first. -/
theorem seq (placed : Placed routine address (.seq first second)) :
    Placed routine address first ∧ Placed routine (address + first.size) second := by
  obtain ⟨firstStands, secondStands⟩ := Tree.stands_seq.mp placed.stands
  exact ⟨⟨firstStands, placed.fits.1, placed.balanced.1, placed.obeys_part (by simp)⟩,
    ⟨secondStands, placed.fits.2, placed.balanced.2, placed.obeys_part (by simp)⟩⟩

theorem skip (placed : Placed routine address (.skip test body)) :
    Branches routine.code address test (address + (3 + body.size)) ∧
      Placed routine (address + 3) body := by
  obtain ⟨branches, bodyStands⟩ := Tree.stands_skip placed.fits placed.stands
  exact ⟨branches, bodyStands, placed.fits.1, placed.balanced.1, placed.obeys_part (by simp)⟩

theorem choose (placed : Placed routine address (.choose test body rest)) :
    Branches routine.code address test (address + (3 + body.size + 3)) ∧
      Placed routine (address + 3) body ∧
      Branches routine.code (address + (3 + body.size)) .always
        (address + (3 + body.size + (3 + rest.size))) ∧
      Placed routine (address + (3 + body.size + 3)) rest := by
  obtain ⟨branches, bodyStands, leaves, restStands⟩ :=
    Tree.stands_choose placed.fits placed.stands
  exact ⟨branches,
    ⟨bodyStands, placed.fits.1, placed.balanced.1, placed.obeys_part (by simp)⟩, leaves,
    ⟨restStands, placed.fits.2.1, placed.balanced.2.1, placed.obeys_part (by simp)⟩⟩

theorem loop (placed : Placed routine address (.loop head test body)) :
    Placed routine address head ∧
      Branches routine.code (address + head.size) test
        (address + (head.size + (3 + body.size + 3))) ∧
      Placed routine (address + (head.size + 3)) body ∧
      Branches routine.code (address + (head.size + (3 + body.size))) .always address := by
  obtain ⟨headStands, branches, bodyStands, goesBack⟩ :=
    Tree.stands_loop placed.fits placed.stands
  exact ⟨⟨headStands, placed.fits.1, placed.balanced.1, placed.obeys_part (by simp)⟩, branches,
    ⟨bodyStands, placed.fits.2.1, placed.balanced.2.1, placed.obeys_part (by simp)⟩, goesBack⟩

end Placed

/-- The machine gets past a branch that it can decide. -/
theorem Branches.reaches
    {test : Test}
    {target : Nat}
    {taken : Bool}
    {stack : List Machine.Datum}
    (branches : Branches routine.code address test target)
    (decided : test.decide? frame.stack = some (taken, stack))
    (height : frame.stack.length ≤ routine.maxStack.toNat) :
    routine.Reaches ⟨address, frame⟩
      ⟨if taken then target else address + 3, { frame with stack }⟩ :=
  .single (step_branch branches decided height)

/-- A branch that is always taken leaves the frame as it is. -/
theorem Branches.reaches_always
    {target : Nat}
    (branches : Branches routine.code address .always target)
    (height : frame.stack.length ≤ routine.maxStack.toNat) :
    routine.Reaches ⟨address, frame⟩ ⟨target, frame⟩ :=
  branches.reaches rfl height

/-- The machine runs a tree that stands in a method with room for its operands. -/
theorem Runs.reaches
    {tree : Tree}
    (runs : Runs routine.pool tree frame next)
    (placed : Placed routine address tree)
    (height : frame.stack.length + tree.peak ≤ routine.maxStack.toNat) :
    routine.Reaches ⟨address, frame⟩ ⟨address + tree.size, next⟩ := by
  induction runs generalizing address with
  | empty => exact .refl
  | @plain order action frame next means performed =>
      obtain ⟨cells, obeys⟩ := placed.obeys
      have rises := (Tree.plain order).peak_nonneg
      exact .single (step_plain (by simpa using placed.stands) means performed obeys (by omega))
  | seq firstRuns secondRuns firstReaches secondReaches =>
      obtain ⟨firstPlaced, secondPlaced⟩ := placed.seq
      have length := firstRuns.length_eq firstPlaced.balanced
      simp only [Tree.peak] at height
      have toSecond := firstReaches firstPlaced (by omega)
      have toEnd := secondReaches secondPlaced (by omega)
      rw [Nat.add_assoc] at toEnd
      exact toSecond.trans toEnd
  | @skipped test body frame stack decided =>
      obtain ⟨branches, -⟩ := placed.skip
      have rises := (Tree.skip test body).peak_nonneg
      exact branches.reaches decided (by omega)
  | @entered test body frame next stack decided _ bodyReaches =>
      obtain ⟨branches, bodyPlaced⟩ := placed.skip
      have length := Test.length_decide? decided
      simp only [Tree.peak] at height
      have toBody := branches.reaches decided (by omega)
      have toEnd := bodyReaches bodyPlaced (by simp only; omega)
      rw [Nat.add_assoc] at toEnd
      exact toBody.trans toEnd
  | @first test body rest frame next stack decided bodyRuns bodyReaches =>
      obtain ⟨branches, bodyPlaced, leaves, -⟩ := placed.choose
      have length := Test.length_decide? decided
      have bodyLength := bodyRuns.length_eq bodyPlaced.balanced
      have bodyRises := body.effect_le_peak
      simp only [Tree.peak] at height bodyLength
      have toBody := branches.reaches decided (by omega)
      have toExit := bodyReaches bodyPlaced (by simp only; omega)
      rw [Nat.add_assoc] at toExit
      exact (toBody.trans toExit).trans (leaves.reaches_always (by omega))
  | @second test body rest frame next stack decided _ restReaches =>
      obtain ⟨branches, -, -, restPlaced⟩ := placed.choose
      have length := Test.length_decide? decided
      simp only [Tree.peak] at height
      have toRest := branches.reaches decided (by omega)
      have toEnd := restReaches restPlaced (by simp only; omega)
      have ends : address + (3 + body.size + 3) + rest.size =
          address + (Tree.choose test body rest).size := by simp only [Tree.size]; omega
      rw [ends] at toEnd
      exact toRest.trans toEnd
  | @done head test body frame middle stack headRuns decided headReaches =>
      obtain ⟨headPlaced, branches, -⟩ := placed.loop
      have length := headRuns.length_eq headPlaced.balanced
      have headRises := head.effect_le_peak
      simp only [Tree.peak] at height
      exact (headReaches headPlaced (by omega)).trans (branches.reaches decided (by omega))
  | @again head test body frame middle round next stack headRuns decided bodyRuns _
      headReaches bodyReaches loopReaches =>
      obtain ⟨headPlaced, branches, bodyPlaced, goesBack⟩ := placed.loop
      have headLength := headRuns.length_eq headPlaced.balanced
      have length := Test.length_decide? decided
      have bodyLength := bodyRuns.length_eq bodyPlaced.balanced
      have headRises := head.effect_le_peak
      have bodyRises := body.effect_le_peak
      have flat := placed.balanced.2.2
      simp only [Tree.peak] at height loopReaches bodyLength
      have toTest := headReaches headPlaced (by omega)
      have toBody := branches.reaches decided (by omega)
      have toBack := bodyReaches bodyPlaced (by simp only; omega)
      have ends : address + (head.size + 3) + body.size =
          address + (head.size + (3 + body.size)) := by omega
      rw [ends] at toBack
      have low : round.stack.length ≤ routine.maxStack.toNat := by omega
      have toHead := goesBack.reaches_always low
      exact (((toTest.trans toBody).trans toBack).trans toHead).trans
        (loopReaches placed (by omega))

end Reaches

end Compile
end Pictogram
