import Pictogram.Proofs.Code.Statement
import Pictogram.Proofs.Machine.Execution

/-!
# Access to local variables

Every slot is given out once, for values of one type.  So the instructions that
read or write it agree on what it holds, wherever they stand, and none of them
reaches beyond the slots given out.
-/

namespace Pictogram
namespace Compile

open Pictogram.Class (Pool)
open Machine (Action Order Test Cell)

/-- The local variable that an instruction reads or writes. -/
def access? (order : Order) : Option (UInt8 × Cell) := order.action?.bind Action.local?

/-- The local variable of an instruction is that of the action that it stands for. -/
theorem access?_eq
    {order : Order}
    {action : Action}
    (means : order.action? = some action) :
    access? order = action.local? := by
  simp [access?, means]

theorem access?_branch (test : Test) (offset : Int) :
    access? (.branch test offset) = none := by
  obtain ⟨first, second, both⟩ := List.length_eq_two.mp (Bytes.length_signed 2 offset)
  cases test <;>
    simp [access?, Order.action?, Order.branch, Test.opcode, both, Machine.Opcode.action?, Machine.Opcode.pairAction?,
      Action.local?]

/-- The local variables that a tree reads and writes. -/
def Tree.accesses (tree : Tree) : List (UInt8 × Cell) := tree.orders.filterMap access?

namespace Tree

@[simp] theorem accesses_empty : Tree.empty.accesses = [] := rfl

theorem accesses_plain
    {order : Order}
    {action : Action}
    (means : order.action? = some action) :
    (Tree.plain order).accesses = action.local?.toList := by
  rw [accesses, orders, List.filterMap_cons, List.filterMap_nil, access?_eq means]
  cases action.local? <;> rfl

@[simp] theorem accesses_seq (first second : Tree) :
    (Tree.seq first second).accesses = first.accesses ++ second.accesses := by
  simp [accesses, orders]

@[simp] theorem accesses_skip (test : Test) (body : Tree) :
    (Tree.skip test body).accesses = body.accesses := by
  simp [accesses, orders, access?_branch]

@[simp] theorem accesses_choose (test : Test) (body rest : Tree) :
    (Tree.choose test body rest).accesses = body.accesses ++ rest.accesses := by
  simp [accesses, orders, access?_branch]

@[simp] theorem accesses_loop (head : Tree) (test : Test) (body : Tree) :
    (Tree.loop head test body).accesses = head.accesses ++ body.accesses := by
  simp [accesses, orders, access?_branch]

end Tree

/-- A tree reads and writes slots below a bound only, each for what it holds. -/
def Tree.Obeys (tree : Tree) (cells : UInt8 → Cell) (bound : Nat) : Prop :=
  ∀ access ∈ tree.accesses, access.1.toNat < bound ∧ cells access.1 = access.2

namespace Tree.Obeys

variable {cells later : UInt8 → Cell} {bound higher : Nat}

/-- What slots hold that have been given out does not change. -/
theorem mono
    {tree : Tree}
    (obeys : tree.Obeys cells bound)
    (kept : ∀ slot : UInt8, slot.toNat < bound → later slot = cells slot)
    (le : bound ≤ higher) :
    tree.Obeys later higher := by
  intro access present
  obtain ⟨below, holds⟩ := obeys access present
  exact ⟨below.trans_le le, (kept _ below).trans holds⟩

/-- Two trees that obey the same cells obey them one behind the other. -/
theorem seq
    {first second : Tree}
    (firstObeys : first.Obeys cells bound)
    (secondObeys : second.Obeys cells bound) :
    (Tree.seq first second).Obeys cells bound := by
  unfold Obeys
  rw [accesses_seq]
  exact List.forall_mem_append.mpr ⟨firstObeys, secondObeys⟩

theorem skip
    {test : Test}
    {body : Tree}
    (bodyObeys : body.Obeys cells bound) :
    (Tree.skip test body).Obeys cells bound := by
  unfold Obeys
  rwa [accesses_skip]

theorem choose
    {test : Test}
    {body rest : Tree}
    (bodyObeys : body.Obeys cells bound)
    (restObeys : rest.Obeys cells bound) :
    (Tree.choose test body rest).Obeys cells bound := by
  unfold Obeys
  rw [accesses_choose]
  exact List.forall_mem_append.mpr ⟨bodyObeys, restObeys⟩

theorem loop
    {head body : Tree}
    {test : Test}
    (headObeys : head.Obeys cells bound)
    (bodyObeys : body.Obeys cells bound) :
    (Tree.loop head test body).Obeys cells bound := by
  unfold Obeys
  rw [accesses_loop]
  exact List.forall_mem_append.mpr ⟨headObeys, bodyObeys⟩

/-- An instruction obeys the cells if the local variable of its action does. -/
theorem plain
    {order : Order}
    {action : Action}
    (means : order.action? = some action)
    (allowed : ∀ slot cell, action.local? = some (slot, cell) →
      slot.toNat < bound ∧ cells slot = cell) :
    (Tree.plain order).Obeys cells bound := by
  unfold Obeys
  rw [accesses_plain means]
  rintro ⟨slot, cell⟩ present
  exact allowed slot cell (Option.mem_toList.mp present)

/-- An instruction that uses no local variable. -/
theorem of_none
    {order : Order}
    {action : Action}
    (means : order.action? = some action)
    (none : action.local? = none) :
    (Tree.plain order).Obeys cells bound := by
  refine .plain means fun slot cell found => ?_
  rw [none] at found
  cases found

theorem load
    {cell : Cell}
    {slot : UInt8}
    (below : slot.toNat < bound)
    (holds : cells slot = cell) :
    (Tree.plain (.load cell slot)).Obeys cells bound := by
  refine .plain (Order.action?_load cell slot) fun _ _ found => ?_
  cases found
  exact ⟨below, holds⟩

theorem store
    {cell : Cell}
    {slot : UInt8}
    (below : slot.toNat < bound)
    (holds : cells slot = cell) :
    (Tree.plain (.store cell slot)).Obeys cells bound := by
  refine .plain (Order.action?_store cell slot) fun _ _ found => ?_
  cases found
  exact ⟨below, holds⟩

theorem increment
    {slot : UInt8}
    (below : slot.toNat < bound)
    (holds : cells slot = .int) :
    (Tree.plain (.increment slot)).Obeys cells bound := by
  refine .plain (Order.action?_increment slot) fun _ _ found => ?_
  cases found
  exact ⟨below, holds⟩

end Tree.Obeys

/-- The slots of names in scope hold values of the names' types. -/
def Slots.Hold (slots : Slots) (cells : UInt8 → Cell) : Prop :=
  ∀ found ∈ slots.locals, cells found.slot = found.type.cell

/-- The slot of a name in scope is below the bound, and holds values of the name's type. -/
theorem Slots.Hold.resolved
    {slots : Slots}
    {cells : UInt8 → Cell}
    {name : String}
    {found : Local}
    (holds : slots.Hold cells)
    (valid : slots.Valid)
    (resolved : slots.resolve? name = some found) :
    found.slot.toNat < slots.next ∧ cells found.slot = found.type.cell := by
  obtain ⟨present, -⟩ := Slots.mem_of_resolve? resolved
  exact ⟨valid.slot_lt found present, holds found present⟩

/-- The code of an operator touches no local variable. -/
theorem OperationTree.obeys
    {operator : BinaryOperator}
    {left right type : StaticType}
    {tree : Tree}
    (code : OperationTree operator left right type tree)
    (cells : UInt8 → Cell)
    (bound : Nat) :
    tree.Obeys cells bound := by
  cases code with
  | integer _ | boolean _ => exact .of_none rfl rfl
  | ordering _ | equality _ => exact .choose (.of_none rfl rfl) (.of_none rfl rfl)

/-- The code of an expression uses the slots of names in scope. -/
theorem ExpressionTree.obeys
    {pool : Pool}
    {slots : Slots}
    {e : Expression}
    {type : StaticType}
    {tree : Tree}
    {cells : UInt8 → Cell}
    (code : ExpressionTree pool slots e type tree)
    (valid : slots.Valid)
    (holds : slots.Hold cells) :
    tree.Obeys cells slots.next := by
  have pushed {order : Order} {datum : Machine.Datum} (pushes : order.Pushes pool datum) :
      (Tree.plain order).Obeys cells slots.next := by
    cases pushes with
    | operand means => exact .of_none means rfl
    | constant means _ => exact .of_none means rfl
  induction code with
  | number _ pushes => exact pushed pushes
  | string pushes => exact pushed pushes
  | boolean pushes => exact pushed pushes
  | name resolved =>
      obtain ⟨below, holds⟩ := holds.resolved valid resolved
      exact .load below holds
  | negate _ argumentObeys => exact argumentObeys.seq (.of_none rfl rfl)
  | binary _ _ operation leftObeys rightObeys =>
      exact leftObeys.seq (rightObeys.seq (operation.obeys _ _))
  | assign resolved _ valueObeys =>
      obtain ⟨below, holds⟩ := holds.resolved valid resolved
      exact valueObeys.seq (.seq (.of_none rfl rfl) (.store below holds))

/-- A slot that has just been given out may be taken to hold anything. -/
theorem Slots.Hold.update
    {slots : Slots}
    {cells : UInt8 → Cell}
    {slot : UInt8}
    (holds : slots.Hold cells)
    (valid : slots.Valid)
    (place : slot.toNat = slots.next)
    (cell : Cell) :
    slots.Hold (Function.update cells slot cell) ∧
      ∀ other : UInt8, other.toNat < slots.next →
        Function.update cells slot cell other = cells other := by
  have kept : ∀ other : UInt8, other.toNat < slots.next →
      Function.update cells slot cell other = cells other := by
    intro other below
    have different : other ≠ slot := by
      rintro rfl
      omega
    exact Function.update_of_ne different _ _
  refine ⟨fun found present => ?_, kept⟩
  rw [kept _ (valid.slot_lt found present)]
  exact holds found present

/-- A declaration takes a new slot, which can be made to hold values of the declared type. -/
theorem Slots.Hold.declared
    {before after : Slots}
    {cells : UInt8 → Cell}
    {id : Identifier}
    {type : StaticType}
    {slot : UInt8}
    (holds : before.Hold cells)
    (valid : before.Valid)
    (given : Slots.declare id type before = .ok slot after) :
    ∃ later, (∀ other : UInt8, other.toNat < before.next → later other = cells other) ∧
      after.Hold later ∧ later slot = type.cell ∧ slot.toNat < after.next := by
  obtain ⟨-, place, -, rfl⟩ := Slots.declare_ok given
  obtain ⟨stillHolds, kept⟩ := holds.update valid place type.cell
  refine ⟨_, kept, ?_, Function.update_self _ _ _, ?_⟩
  · intro found present
    rcases List.mem_cons.mp present with rfl | earlier
    · exact Function.update_self _ _ _
    · exact stillHolds found earlier
  · dsimp only
    omega

/-- A hidden slot is new as well, and can be made to hold integers. -/
theorem Slots.Hold.hidden
    {before after : Slots}
    {cells : UInt8 → Cell}
    {slot : UInt8}
    (holds : before.Hold cells)
    (valid : before.Valid)
    (given : Slots.hidden before = .ok slot after) :
    ∃ later, (∀ other : UInt8, other.toNat < before.next → later other = cells other) ∧
      after.Hold later ∧ later slot = .int ∧ slot.toNat < after.next := by
  obtain ⟨place, -, rfl⟩ := Slots.hidden_ok given
  obtain ⟨stillHolds, kept⟩ := holds.update valid place .int
  refine ⟨_, kept, stillHolds, Function.update_self _ _ _, ?_⟩
  dsimp only
  omega

/-- The code of statements uses slots as they have been given out. -/
theorem PartTree.obeys
    {pool : Pool}
    {before after : Slots}
    {part : Part}
    {tree : Tree}
    {cells : UInt8 → Cell}
    (code : PartTree pool before part after tree)
    (valid : before.Valid)
    (holds : before.Hold cells) :
    ∃ later, (∀ slot : UInt8, slot.toNat < before.next → later slot = cells slot) ∧
      after.Hold later ∧ tree.Obeys later after.next := by
  induction code generalizing cells with
  | print _ argument _ =>
      refine ⟨cells, fun _ _ => rfl, holds, ?_⟩
      exact .seq (.of_none (Order.action?_field _) rfl)
        (.seq (argument.obeys valid holds) (.of_none (Order.action?_call _) rfl))
  | declare value declared =>
      obtain ⟨later, kept, laterHolds, slotHolds, below⟩ := holds.declared valid declared
      have valueObeys := (value.obeys valid holds).mono kept (Slots.grows_declare declared).next_le
      exact ⟨later, kept, laterHolds, valueObeys.seq (.store below slotHolds)⟩
  | declareZero declared =>
      obtain ⟨later, kept, laterHolds, slotHolds, below⟩ := holds.declared valid declared
      exact ⟨later, kept, laterHolds, .seq (.of_none rfl rfl) (.store below slotHolds)⟩
  | onlyIf test _ body _ bodyObeys =>
      obtain ⟨later, kept, laterHolds, bodyObeys⟩ := bodyObeys valid holds
      have testObeys := (test.obeys valid holds).mono kept body.grows.next_le
      exact ⟨later, kept, laterHolds, testObeys.seq bodyObeys.skip⟩
  | ifElse test _ body _ rest bodyObeys restObeys =>
      obtain ⟨middle, middleKept, middleHolds, bodyObeys⟩ := bodyObeys valid holds
      obtain ⟨later, laterKept, laterHolds, restObeys⟩ :=
        restObeys (body.grows.valid valid) middleHolds
      have kept : ∀ slot : UInt8, slot.toNat < _ → later slot = cells slot := fun slot below =>
        (laterKept slot (below.trans_le body.grows.next_le)).trans (middleKept slot below)
      have testObeys := (test.obeys valid holds).mono kept (body.grows.trans rest.grows).next_le
      exact ⟨later, kept, laterHolds, testObeys.seq
        ((bodyObeys.mono laterKept rest.grows.next_le).choose restObeys)⟩
  | @count before held inside after _ _ _ _ stopSlot slot _ _ _ start stop hidden declared body
      bodyObeys =>
      have heldGrows := Slots.grows_hidden hidden
      have insideGrows := Slots.grows_declare declared
      obtain ⟨first, firstKept, firstHolds, stopHeld, stopBelow⟩ := holds.hidden valid hidden
      obtain ⟨middle, middleKept, middleHolds, slotHolds, slotBelow⟩ :=
        firstHolds.declared (heldGrows.valid valid) declared
      obtain ⟨later, laterKept, laterHolds, bodyObeys⟩ :=
        bodyObeys (insideGrows.valid (heldGrows.valid valid)) middleHolds
      have keptHeld : ∀ other : UInt8, other.toNat < held.next → later other = first other :=
        fun other below =>
          (laterKept other (below.trans_le insideGrows.next_le)).trans (middleKept other below)
      have kept : ∀ other : UInt8, other.toNat < before.next → later other = cells other :=
        fun other below =>
          (keptHeld other (below.trans_le heldGrows.next_le)).trans (firstKept other below)
      have stopHolds : later stopSlot = .int := (keptHeld stopSlot stopBelow).trans stopHeld
      have counterHolds : later slot = .int := (laterKept slot slotBelow).trans slotHolds
      have insideLe : inside.next ≤ after.next := body.grows.next_le
      have heldLe : held.next ≤ after.next := insideGrows.next_le.trans insideLe
      have beforeLe : before.next ≤ after.next := heldGrows.next_le.trans heldLe
      refine ⟨later, kept, fun found present => laterHolds found (List.mem_of_mem_filter present),
        ?_⟩
      have startObeys := (start.obeys valid holds).mono kept beforeLe
      have stopObeys := (stop.obeys valid holds).mono kept beforeLe
      exact .seq
        (startObeys.seq (stopObeys.seq (.seq (.store (stopBelow.trans_le heldLe) stopHolds)
          (.store (slotBelow.trans_le insideLe) counterHolds))))
        (.loop (.seq (.load (slotBelow.trans_le insideLe) counterHolds)
          (.load (stopBelow.trans_le heldLe) stopHolds))
          (bodyObeys.seq (.increment (slotBelow.trans_le insideLe) counterHolds)))
  | loop test _ body bodyObeys =>
      obtain ⟨later, kept, laterHolds, bodyObeys⟩ := bodyObeys valid holds
      have testObeys := (test.obeys valid holds).mono kept body.grows.next_le
      exact ⟨later, kept, laterHolds, testObeys.loop bodyObeys⟩
  | assign resolved value =>
      obtain ⟨below, slotHolds⟩ := holds.resolved valid resolved
      exact ⟨cells, fun _ _ => rfl, holds, (value.obeys valid holds).seq (.store below slotHolds)⟩
  | drop value =>
      exact ⟨cells, fun _ _ => rfl, holds, (value.obeys valid holds).seq (.of_none rfl rfl)⟩
  | nil => exact ⟨cells, fun _ _ => rfl, holds, by simp [Tree.Obeys]⟩
  | cons first rest firstObeys restObeys =>
      obtain ⟨middle, middleKept, middleHolds, firstObeys⟩ := firstObeys valid holds
      obtain ⟨later, laterKept, laterHolds, restObeys⟩ :=
        restObeys (first.grows.valid valid) middleHolds
      refine ⟨later, fun slot below => ?_, laterHolds,
        (firstObeys.mono laterKept rest.grows.next_le).seq restObeys⟩
      exact (laterKept slot (below.trans_le first.grows.next_le)).trans (middleKept slot below)

end Compile
end Pictogram
