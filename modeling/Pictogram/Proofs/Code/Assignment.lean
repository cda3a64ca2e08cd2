import Pictogram.Proofs.Code.Scope
import Pictogram.Proofs.Code.ValidClass
import Pictogram.Proofs.Source.Assignment

/-!
# Slots that are read before they are stored

Every name has one slot as long as it stands for one variable.  So a walk reads a
slot before it stores into it just where the text may read the variable unset.
Counters and the bounds of loops have slots that are always stored first.
-/

namespace Pictogram

namespace Machine

/-- Whether an instruction stores into a local variable. -/
def Instruction.storesInto (slot : UInt8) (instruction : Instruction) : Bool :=
  instruction.stores? == some slot

/-- A branch stores into no local variable. -/
theorem Instruction.storesInto_of_isBranch
    (slot : UInt8)
    {instruction : Instruction}
    (isBranch : instruction.opcode.isBranch = true) :
    instruction.storesInto slot = false := by
  obtain ⟨address, opcode, operands⟩ := instruction
  cases opcode with
  | ifZero | ifNonzero | ifCompare _ | goto => rfl
  | _ => cases isBranch

/-- A branch reads no local variable. -/
theorem Order.reads?_branch (test : Test) (offset : Int) (address : Nat) :
    ((Order.branch test offset).standing address).reads? = none := by
  cases test <;> rfl

end Machine

namespace Compile

open Pictogram.Class (Pool)
open Machine (Order Action Instruction Routine Walk WalksTo decode)

namespace Tree

variable (slot : UInt8)

/-- Whether there is a way through the tree that does not store into a slot. -/
def leavesUnset : Tree → Bool
  | .empty => true
  | .plain order => !(order.standing 0).storesInto slot
  | .seq first second => first.leavesUnset && second.leavesUnset
  | .skip _ _ => true
  | .choose _ body rest => body.leavesUnset || rest.leavesUnset
  | .loop head _ _ => head.leavesUnset

/-- Whether there is a way to an instruction that reads a slot, on which it is not stored
into. -/
def readsUnset : Tree → Bool
  | .empty => false
  | .plain order => (order.standing 0).reads? == some slot
  | .seq first second => first.readsUnset || (first.leavesUnset slot && second.readsUnset)
  | .skip _ body => body.readsUnset
  | .choose _ body rest => body.readsUnset || rest.readsUnset
  | .loop head _ body => head.readsUnset || (head.leavesUnset slot && body.readsUnset)

/-- The way through a tree without a store can be told from the tree. -/
theorem passes_iff (tree : Tree) (address : Nat) :
    tree.Passes (Instruction.storesInto slot) address ↔ tree.leavesUnset slot = true := by
  induction tree generalizing address with
  | empty | skip _ _ _ => simp [Passes, leavesUnset]
  | plain order =>
      show (order.standing 0).storesInto slot = false ↔ _
      simp [leavesUnset]
  | seq first second firstHypothesis secondHypothesis =>
      simp [Passes, leavesUnset, firstHypothesis, secondHypothesis]
  | choose test body rest bodyHypothesis restHypothesis =>
      simp [Passes, leavesUnset, bodyHypothesis, restHypothesis]
  | loop head test body headHypothesis _ => simp [Passes, leavesUnset, headHypothesis]

/-- The tree reaches an instruction that reads the slot. -/
def ReachesRead (tree : Tree) (address : Nat) : Prop :=
  ∃ instruction, tree.Reaches (Instruction.storesInto slot) address instruction ∧
    instruction.reads? = some slot

/-- The way to a read without a store can be told from the tree. -/
theorem reachesRead_iff (tree : Tree) (address : Nat) :
    tree.ReachesRead slot address ↔ tree.readsUnset slot = true := by
  induction tree generalizing address with
  | empty => simp [ReachesRead, Reaches, readsUnset]
  | plain order =>
      simp only [ReachesRead, Reaches, exists_eq_left, readsUnset, beq_iff_eq]
      rfl
  | seq first second firstHypothesis secondHypothesis =>
      simp only [readsUnset, Bool.or_eq_true, Bool.and_eq_true, ← firstHypothesis address,
        ← secondHypothesis (address + first.size), ← passes_iff slot first address]
      simp only [ReachesRead, Reaches, or_and_right, exists_or, and_assoc, exists_and_left]
  | skip test body bodyHypothesis =>
      simp only [readsUnset, ← bodyHypothesis (address + 3)]
      simp [ReachesRead, Reaches, or_and_right, exists_or, Order.reads?_branch]
  | choose test body rest bodyHypothesis restHypothesis =>
      simp only [readsUnset, Bool.or_eq_true, ← bodyHypothesis (address + 3),
        ← restHypothesis (address + (3 + body.size + 3))]
      simp [ReachesRead, Reaches, or_and_right, exists_or, Order.reads?_branch, and_assoc]
  | loop head test body headHypothesis bodyHypothesis =>
      simp only [readsUnset, Bool.or_eq_true, Bool.and_eq_true, ← headHypothesis address,
        ← bodyHypothesis (address + (head.size + 3)), ← passes_iff slot head address]
      simp [ReachesRead, Reaches, or_and_right, exists_or, Order.reads?_branch, and_assoc]

section Plain

variable {slot : UInt8} {order : Order} {action : Action} (means : order.action? = some action)
include means

/-- An instruction leaves a slot unset unless its action stores into it. -/
theorem leavesUnset_plain :
    (Tree.plain order).leavesUnset slot = (action.stores? != some slot) := by
  rw [leavesUnset, Instruction.storesInto, (Order.uses_standing order 0 means).2.1]
  rfl

/-- An instruction reads an unset slot if its action reads it. -/
theorem readsUnset_plain : (Tree.plain order).readsUnset slot = (action.reads? == some slot) := by
  rw [readsUnset, (Order.uses_standing order 0 means).1]

end Plain

section Instructions

variable (slot : UInt8) (cell : Machine.Cell) (place : UInt8)

@[simp] theorem leavesUnset_load : (Tree.plain (.load cell place)).leavesUnset slot = true :=
  leavesUnset_plain (Order.action?_load cell place)

@[simp] theorem readsUnset_load :
    (Tree.plain (.load cell place)).readsUnset slot = (place == slot) :=
  readsUnset_plain (Order.action?_load cell place)

@[simp] theorem leavesUnset_store :
    (Tree.plain (.store cell place)).leavesUnset slot = (place != slot) :=
  leavesUnset_plain (Order.action?_store cell place)

@[simp] theorem readsUnset_store : (Tree.plain (.store cell place)).readsUnset slot = false :=
  readsUnset_plain (Order.action?_store cell place)

@[simp] theorem leavesUnset_increment :
    (Tree.plain (.increment place)).leavesUnset slot = true := rfl

@[simp] theorem readsUnset_increment :
    (Tree.plain (.increment place)).readsUnset slot = (place == slot) := rfl

end Instructions

@[simp] theorem leavesUnset_seq (first second : Tree) :
    (Tree.seq first second).leavesUnset slot =
      (first.leavesUnset slot && second.leavesUnset slot) := rfl

@[simp] theorem readsUnset_seq (first second : Tree) :
    (Tree.seq first second).readsUnset slot =
      (first.readsUnset slot || (first.leavesUnset slot && second.readsUnset slot)) := rfl

@[simp] theorem leavesUnset_skip (test : Machine.Test) (body : Tree) :
    (Tree.skip test body).leavesUnset slot = true := rfl

@[simp] theorem readsUnset_skip (test : Machine.Test) (body : Tree) :
    (Tree.skip test body).readsUnset slot = body.readsUnset slot := rfl

@[simp] theorem leavesUnset_choose (test : Machine.Test) (body rest : Tree) :
    (Tree.choose test body rest).leavesUnset slot =
      (body.leavesUnset slot || rest.leavesUnset slot) := rfl

@[simp] theorem readsUnset_choose (test : Machine.Test) (body rest : Tree) :
    (Tree.choose test body rest).readsUnset slot =
      (body.readsUnset slot || rest.readsUnset slot) := rfl

@[simp] theorem leavesUnset_loop (head : Tree) (test : Machine.Test) (body : Tree) :
    (Tree.loop head test body).leavesUnset slot = head.leavesUnset slot := rfl

@[simp] theorem readsUnset_loop (head : Tree) (test : Machine.Test) (body : Tree) :
    (Tree.loop head test body).readsUnset slot =
      (head.readsUnset slot || (head.leavesUnset slot && body.readsUnset slot)) := rfl

/-- A tree that neither reads a slot nor stores into it. -/
structure Spares (tree : Tree) (slot : UInt8) : Prop where
  leaves : tree.leavesUnset slot = true
  reads : tree.readsUnset slot = false

namespace Spares

variable {slot}

theorem seq
    {first second : Tree}
    (firstSpares : first.Spares slot)
    (secondSpares : second.Spares slot) :
    (Tree.seq first second).Spares slot where
  leaves := by simp [firstSpares.leaves, secondSpares.leaves]
  reads := by simp [firstSpares.reads, secondSpares.reads]

/-- An instruction whose action has no local variable spares every slot. -/
theorem of_local?
    {order : Order}
    {action : Action}
    (means : order.action? = some action)
    (none : action.local? = none) :
    (Tree.plain order).Spares slot := by
  refine ⟨?_, ?_⟩
  · rw [leavesUnset_plain means]
    cases action with
    | load _ _ | store _ _ | increment _ _ => cases none
    | _ => rfl
  · rw [readsUnset_plain means]
    cases action with
    | load _ _ | store _ _ | increment _ _ => cases none
    | _ => rfl

end Spares

/-- A tree spares the slots that are not given out. -/
theorem StaysBelow.spares
    {tree : Tree}
    {bound : Nat}
    (below : tree.StaysBelow bound)
    (beyond : bound ≤ slot.toNat) :
    tree.Spares slot := by
  have apart {order : Order} (present : order ∈ tree.orders) :
      (order.standing 0).reads? ≠ some slot ∧ (order.standing 0).stores? ≠ some slot := by
    have lower := below order present slot
    constructor
    · intro reads
      have := lower (.inl reads)
      omega
    · intro stores
      have := lower (.inr stores)
      omega
  clear below beyond
  induction tree with
  | empty => exact ⟨rfl, rfl⟩
  | plain order =>
      obtain ⟨noRead, noStore⟩ := apart (List.mem_singleton_self order)
      exact ⟨by simpa [leavesUnset, Instruction.storesInto] using noStore,
        by simpa [readsUnset] using noRead⟩
  | seq first second firstHypothesis secondHypothesis =>
      have firstSpares := firstHypothesis fun present => apart (List.mem_append_left _ present)
      have secondSpares := secondHypothesis fun present => apart (List.mem_append_right _ present)
      exact firstSpares.seq secondSpares
  | skip test body bodyHypothesis =>
      have bodySpares := bodyHypothesis fun present => apart (List.mem_cons_of_mem _ present)
      exact ⟨rfl, bodySpares.reads⟩
  | choose test body rest bodyHypothesis restHypothesis =>
      have bodySpares := bodyHypothesis fun present => apart (by simp [orders, present])
      have restSpares := restHypothesis fun present => apart (by simp [orders, present])
      exact ⟨by simp [leavesUnset, bodySpares.leaves],
        by simp [readsUnset, bodySpares.reads, restSpares.reads]⟩
  | loop head test body headHypothesis bodyHypothesis =>
      have headSpares := headHypothesis fun present => apart (by simp [orders, present])
      have bodySpares := bodyHypothesis fun present => apart (by simp [orders, present])
      exact ⟨headSpares.leaves, by simp [readsUnset, headSpares.reads, bodySpares.reads]⟩

end Tree

/-- The code of an operator spares every slot. -/
theorem OperationTree.spares
    {operator : BinaryOperator}
    {left right type : StaticType}
    {tree : Tree}
    (code : OperationTree operator left right type tree)
    (slot : UInt8) :
    tree.Spares slot := by
  cases code with
  | integer _ | boolean _ | ordering _ | equality _ => exact ⟨rfl, rfl⟩

/-- An instruction that pushes a datum spares every slot. -/
theorem spares_of_pushes
    {pool : Pool}
    {order : Order}
    {datum : Machine.Datum}
    (pushes : order.Pushes pool datum)
    (slot : UInt8) :
    (Tree.plain order).Spares slot := by
  cases pushes with
  | operand means => exact .of_local? means rfl
  | constant means _ => exact .of_local? means rfl

/-! ## The slot of a name -/

section View

variable {pool : Pool} {view : String → Option Local} {name : String} {found : Local}

/-- In a view, two names have one slot only if they are one name. -/
theorem Slots.View.slot_beq
    {slots : Slots}
    {other : String}
    {resolved : Local}
    (seen : slots.View view)
    (viewed : view name = some found)
    (known : slots.resolve? other = some resolved) :
    (resolved.slot == found.slot) = (other == name) := by
  have otherViewed := seen.known known
  rw [Bool.eq_iff_iff, beq_iff_eq, beq_iff_eq]
  constructor
  · exact seen.apart otherViewed viewed
  · rintro rfl
    rw [otherViewed] at viewed
    rw [Option.some.inj viewed]

/-- The code of an expression treats the slot of a name as the text treats the name. -/
theorem ExpressionTree.unset
    {slots : Slots}
    {e : Expression}
    {type : StaticType}
    {tree : Tree}
    (code : ExpressionTree pool slots e type tree)
    (seen : slots.View view)
    (viewed : view name = some found) :
    tree.leavesUnset found.slot = e.leavesUnset name ∧
      tree.readsUnset found.slot = e.readsUnset name := by
  induction code with
  | number _ pushes | string pushes | boolean pushes =>
      have spares := spares_of_pushes pushes found.slot
      exact ⟨spares.leaves, spares.reads⟩
  | name resolved =>
      refine ⟨Tree.leavesUnset_load _ _ _, ?_⟩
      rw [Tree.readsUnset_load, seen.slot_beq viewed resolved]
      rfl
  | negate _ argument =>
      have negates : (Tree.plain .negate).Spares found.slot := ⟨rfl, rfl⟩
      simp [Expression.leavesUnset, Expression.readsUnset, argument, negates.leaves,
        negates.reads]
  | binary _ _ operation left right =>
      have spares := operation.spares found.slot
      simp [Expression.leavesUnset, Expression.readsUnset, left, right, spares.leaves,
        spares.reads]
  | assign resolved _ value =>
      have same := seen.slot_beq viewed resolved
      have doubles : (Tree.plain .dup).Spares found.slot := ⟨rfl, rfl⟩
      simp [Expression.leavesUnset, Expression.readsUnset, value, doubles.leaves, doubles.reads,
        bne, same]

/-- What the slots hold, as the scope has it. -/
theorem Slots.Valid.exists_hold {slots : Slots} (valid : slots.Valid) :
    ∃ cells, slots.Hold cells := by
  refine ⟨fun slot => ((slots.locals.find? (·.slot = slot)).map (·.type.cell)).getD .int, ?_⟩
  intro owned present
  dsimp only
  cases first : slots.locals.find? (·.slot = owned.slot) with
  | none => simpa using List.find?_eq_none.mp first owned present
  | some other =>
      have sameSlot : other.slot = owned.slot := by simpa using List.find?_some first
      rw [valid.distinct other (List.mem_of_find?_eq_some first) owned present sameSlot]
      rfl

/-- The code of statements spares the slots that are given out later. -/
theorem PartTree.spares
    {before after : Slots}
    {part : Part}
    {tree : Tree}
    {slot : UInt8}
    (code : PartTree pool before part after tree)
    (valid : before.Valid)
    (beyond : after.next ≤ slot.toNat) :
    tree.Spares slot := by
  obtain ⟨cells, holds⟩ := valid.exists_hold
  obtain ⟨later, -, -, obeys⟩ := code.obeys valid holds
  exact obeys.staysBelow.spares slot beyond

/-- A declared name is in scope, with its slot and its type. -/
theorem Slots.resolve?_of_declare
    {before after : Slots}
    {id : Identifier}
    {type : StaticType}
    {slot : UInt8}
    (declared : Slots.declare id type before = .ok slot after) :
    after.resolve? id.name = some ⟨id.name, slot, type⟩ := by
  obtain ⟨-, -, -, rfl⟩ := Slots.declare_ok declared
  rw [Slots.resolve?_declared, if_pos rfl]

/-- The code of statements treats the slot of a name as the text treats the name. -/
theorem PartTree.unset
    {before after : Slots}
    {part : Part}
    {tree : Tree}
    (code : PartTree pool before part after tree)
    (valid : before.Valid)
    (seen : after.View view)
    (viewed : view name = some found) :
    tree.leavesUnset found.slot = part.leavesUnset name ∧
      tree.readsUnset found.slot = part.readsUnset name := by
  induction code generalizing view with
  | @print _ _ _ _ _ stream method _ argument _ =>
      have fetches : (Tree.plain (.field stream)).Spares found.slot := ⟨rfl, rfl⟩
      have calls : (Tree.plain (.call method)).Spares found.slot := ⟨rfl, rfl⟩
      simp [argument.unset seen viewed, fetches.leaves, fetches.reads, calls.leaves, calls.reads,
        Statement.leavesUnset, Statement.readsUnset]
  | declare value declared =>
      have valueUnset := value.unset (seen.before (Slots.grows_declare declared)) viewed
      have same := seen.slot_beq viewed (Slots.resolve?_of_declare declared)
      simp only at same
      simp [valueUnset, bne, same, Statement.leavesUnset,
        Statement.readsUnset]
  | declareZero declared =>
      have pushes : (Tree.plain (.iconst 1)).Spares found.slot := ⟨rfl, rfl⟩
      have same := seen.slot_beq viewed (Slots.resolve?_of_declare declared)
      simp only at same
      simp [pushes.leaves, pushes.reads, bne, same, Statement.leavesUnset, Statement.readsUnset]
  | onlyIf test _ bodyCode noRest body =>
      have testUnset := test.unset (seen.before bodyCode.grows) viewed
      have bodyUnset := body valid seen viewed
      simp [testUnset, bodyUnset, Statement.leavesUnset, Statement.readsUnset,
        ← allLeaveUnset_remaining, ← allReadUnset_remaining, noRest, allLeaveUnset, allReadUnset]
  | ifElse test _ bodyCode _ restCode body rest =>
      have testUnset := test.unset (seen.before (bodyCode.grows.trans restCode.grows)) viewed
      have bodyUnset := body valid (seen.before restCode.grows) viewed
      have restUnset := rest (bodyCode.grows.valid valid) seen viewed
      simp [testUnset, bodyUnset, restUnset, Statement.leavesUnset, Statement.readsUnset,
        ← allLeaveUnset_remaining, ← allReadUnset_remaining]
  | @count before held inside after counter _ _ _ stopSlot slot startTree stopTree bodyTree start
      stop hidden declared bodyCode body =>
      have heldGrows := Slots.grows_hidden hidden
      have insideGrows := Slots.grows_declare declared
      have insideValid := insideGrows.valid (heldGrows.valid valid)
      have resolved := bodyCode.grows.kept (Slots.resolve?_of_declare declared)
      by_cases isCounter : counter.name = name
      · -- The name stands for a variable that is declared after the loop.
        have later : after.next ≤ found.slot.toNat :=
          seen.later viewed (by rw [Slots.resolve?_remove, if_pos isCounter.symm])
        have whole := PartTree.count start stop hidden declared bodyCode
        have spares := whole.spares valid later
        have startUnset := start.unset (seen.before whole.grows) viewed
        have stopUnset := stop.unset (seen.before whole.grows) viewed
        have reads := spares.reads
        refine ⟨by simp [spares.leaves, Statement.leavesUnset, isCounter], ?_⟩
        simp only [Tree.readsUnset_seq, Bool.or_eq_false_iff, Bool.and_eq_false_imp, startUnset,
          stopUnset] at reads
        rw [spares.reads]
        simp_all [Statement.readsUnset]
      · have seenInside := seen.counter (bodyCode.grows.valid insideValid) resolved
        have viewedInside : Function.update view counter.name
            (some ⟨counter.name, slot, .int⟩) name = some found := by
          rw [Function.update_of_ne (Ne.symm isCounter), viewed]
        have seenHeld := seenInside.before (insideGrows.trans bodyCode.grows)
        have seenBefore := seenHeld.before heldGrows
        have startUnset := start.unset seenBefore viewedInside
        have stopUnset := stop.unset seenBefore viewedInside
        have bodyUnset := body insideValid seenInside viewedInside
        have isOther : (counter.name == name) = false := beq_eq_false_iff_ne.mpr isCounter
        have notCounter : (slot == found.slot) = false :=
          (seenInside.slot_beq viewedInside resolved).trans isOther
        have notStop : (stopSlot == found.slot) = false :=
          beq_eq_false_iff_ne.mpr (seenHeld.slot_ne_hidden valid hidden viewedInside).symm
        simp [startUnset, stopUnset, bodyUnset, notCounter, notStop, isOther, bne,
          Statement.leavesUnset, Statement.readsUnset, Bool.and_or_distrib_left, Bool.and_assoc,
          Bool.or_assoc]
  | loop test _ bodyCode body =>
      have testUnset := test.unset (seen.before bodyCode.grows) viewed
      have bodyUnset := body valid seen viewed
      simp [testUnset, bodyUnset, Statement.leavesUnset, Statement.readsUnset]
  | assign resolved value =>
      have same := seen.slot_beq viewed resolved
      simp [value.unset seen viewed, bne, same, Statement.leavesUnset, Statement.readsUnset,
        Expression.leavesUnset, Expression.readsUnset]
  | drop value =>
      have drops : (Tree.plain .pop).Spares found.slot := ⟨rfl, rfl⟩
      simp [value.unset seen viewed, drops.leaves, drops.reads, Statement.leavesUnset,
        Statement.readsUnset]
  | nil => exact ⟨rfl, rfl⟩
  | cons firstCode restCode first rest =>
      have firstUnset := first valid (seen.before restCode.grows) viewed
      have restUnset := rest (firstCode.grows.valid valid) seen viewed
      simp only [Part.readsUnset] at firstUnset restUnset
      simp [firstUnset, restUnset, allLeaveUnset, allReadUnset]

end View

/-! ## Slots without a name -/

/-- No name in scope stands for a slot. -/
def Slots.Unowned (slots : Slots) (slot : UInt8) : Prop :=
  ∀ name found, slots.resolve? name = some found → found.slot ≠ slot

/-- A slot that no name stands for later has not been that of a name before. -/
theorem Slots.Unowned.before
    {before after : Slots}
    {slot : UInt8}
    (unowned : after.Unowned slot)
    (grows : before.Grows after) :
    before.Unowned slot :=
  fun name found resolved => unowned name found (grows.kept resolved)

/-- The code of an expression spares the slots that no name stands for. -/
theorem ExpressionTree.spares
    {pool : Pool}
    {slots : Slots}
    {e : Expression}
    {type : StaticType}
    {tree : Tree}
    {slot : UInt8}
    (code : ExpressionTree pool slots e type tree)
    (unowned : slots.Unowned slot) :
    tree.Spares slot := by
  induction code with
  | number _ pushes | string pushes | boolean pushes => exact spares_of_pushes pushes slot
  | name resolved => exact ⟨by simp, by simp [unowned _ _ resolved]⟩
  | negate _ argument => exact argument.seq ⟨rfl, rfl⟩
  | binary _ _ operation left right => exact left.seq (right.seq (operation.spares slot))
  | assign resolved _ value =>
      exact value.seq (.seq ⟨rfl, rfl⟩ ⟨by simp [unowned _ _ resolved], by simp⟩)

/-- A slot that stands for no name in the end is stored into before it is read: it belongs
to the counter or to the bound of a loop. -/
theorem PartTree.readsUnset_of_unowned
    {pool : Pool}
    {before after : Slots}
    {part : Part}
    {tree : Tree}
    {slot : UInt8}
    (code : PartTree pool before part after tree)
    (unowned : after.Unowned slot) :
    tree.readsUnset slot = false := by
  induction code with
  | @print _ _ _ _ _ stream method _ argument _ =>
      have fetches : (Tree.plain (.field stream)).Spares slot := ⟨rfl, rfl⟩
      have calls : (Tree.plain (.call method)).Spares slot := ⟨rfl, rfl⟩
      exact (fetches.seq ((argument.spares unowned).seq calls)).reads
  | declare value declared =>
      have spares := value.spares (unowned.before (Slots.grows_declare declared))
      simp [spares.reads]
  | declareZero declared =>
      have pushes : (Tree.plain (.iconst 1)).Spares slot := ⟨rfl, rfl⟩
      simp [pushes.reads]
  | onlyIf test _ bodyCode _ body =>
      have spares := test.spares (unowned.before bodyCode.grows)
      simp [spares.reads, body unowned]
  | ifElse test _ bodyCode _ restCode body rest =>
      have spares := test.spares (unowned.before (bodyCode.grows.trans restCode.grows))
      simp [spares.reads, body (unowned.before restCode.grows), rest unowned]
  | @count before held inside after counter _ _ _ stopSlot counterSlot _ _ _ start stop hidden
      declared bodyCode body =>
      have whole := PartTree.count start stop hidden declared bodyCode
      have startSpares := start.spares (unowned.before whole.grows)
      have stopSpares := stop.spares (unowned.before whole.grows)
      by_cases isStop : stopSlot = slot
      · simp [startSpares.reads, stopSpares.reads, isStop]
      · by_cases isCounter : counterSlot = slot
        · simp [startSpares.reads, stopSpares.reads, isCounter]
        · have bodyUnowned : after.Unowned slot := by
            intro name found resolved
            by_cases same : name = counter.name
            · subst same
              rw [bodyCode.grows.kept (Slots.resolve?_of_declare declared)] at resolved
              obtain rfl := Option.some.inj resolved
              exact isCounter
            · exact unowned name found (by rw [Slots.resolve?_remove, if_neg same, resolved])
          simp [startSpares.reads, stopSpares.reads, isStop, isCounter, body bodyUnowned]
  | loop test _ bodyCode body =>
      have spares := test.spares (unowned.before bodyCode.grows)
      simp [spares.reads, body unowned]
  | assign _ value => simp [(value.spares unowned).reads]
  | drop value =>
      have drops : (Tree.plain .pop).Spares slot := ⟨rfl, rfl⟩
      exact ((value.spares unowned).seq drops).reads
  | nil => rfl
  | cons _ restCode first rest => simp [first (unowned.before restCode.grows), rest unowned]

/-! ## Walks along a method -/

/-- On every walk from the beginning to an instruction that reads a local variable, there is
an instruction that stores into it. -/
def StoredFirst (code : List UInt8) (slot : UInt8) : Prop :=
  ∀ here ∈ decode code, ∀ passed, Walk code 0 passed here.address → here.reads? = some slot →
    ∃ earlier ∈ passed, earlier.stores? = some slot

/-- In finished code a slot is stored first just when the tree does not read it unset. -/
theorem Finished.storedFirst_iff
    {code : List UInt8}
    {tree : Tree}
    (finished : Finished code tree)
    (slot : UInt8) :
    StoredFirst code slot ↔ tree.readsUnset slot = false := by
  have free : ∀ instruction : Instruction, instruction.opcode.isBranch = true →
      instruction.storesInto slot = false :=
    fun _ isBranch => Instruction.storesInto_of_isBranch slot isBranch
  rw [← Bool.not_eq_true, ← tree.reachesRead_iff slot 0, Tree.ReachesRead]
  push Not
  constructor
  · intro storedFirst instruction reaches reads
    have inside := reaches.mem_instructions
    obtain ⟨passed, walk, unstored⟩ := (finished.walksTo_iff free inside).mpr reaches
    have present : instruction ∈ decode code := by
      rw [finished.decode_eq]
      exact List.mem_append_left _ inside
    obtain ⟨earlier, isPassed, stores⟩ := storedFirst instruction present passed walk reads
    have not := unstored earlier isPassed
    simp [Instruction.storesInto, stores] at not
  · intro unread here present passed walk reads
    by_contra none
    push Not at none
    have inside : here ∈ tree.instructions 0 := by
      rw [finished.decode_eq, List.mem_append, List.mem_singleton] at present
      rcases present with inside | rfl
      · exact inside
      · cases reads
    refine unread here ((finished.walksTo_iff free inside).mp ⟨passed, walk, ?_⟩) reads
    intro earlier isPassed
    simpa [Instruction.storesInto] using none earlier isPassed

/-- A slot is stored into before it is read, unless it stands for a variable that the
program may read unset. -/
theorem MainCode.storedFirst_iff
    {program : Program}
    {routine : Routine}
    {tree : Tree}
    {slots : Slots}
    (main : MainCode program routine tree slots)
    (slot : UInt8) :
    StoredFirst routine.code slot ↔
      ∀ name found, slots.resolve? name = some found → found.slot = slot →
        allReadUnset name program = false := by
  obtain ⟨marks, typed⟩ := main.code.typed 0 []
  have finished : Finished routine.code tree := ⟨main.bytes, main.fits, typed.orderly⟩
  have seen := (main.code.grows.valid Slots.valid_empty).view
  have same {name : String} {found : Local} (resolved : slots.resolve? name = some found) :
      tree.readsUnset found.slot = allReadUnset name program :=
    (main.code.unset Slots.valid_empty seen resolved).2
  rw [finished.storedFirst_iff slot]
  constructor
  · rintro unread name found resolved rfl
    rw [← same resolved, unread]
  · intro noneUnset
    by_cases owned : ∃ name found, slots.resolve? name = some found ∧ found.slot = slot
    · obtain ⟨name, found, resolved, rfl⟩ := owned
      rw [same resolved]
      exact noneUnset name found resolved rfl
    · push Not at owned
      exact main.code.readsUnset_of_unowned owned

/-- In the method `main` of every class that is generated, a local variable is stored into
before it is read on every walk from the beginning, just if it does not stand for a name
that the program may read unset. -/
theorem storedFirst_main_iff
    {options : Options}
    {program : Program}
    {file : Class.File}
    (made : classFile options program = .ok file) :
    ∃ routine slots, file.routine? "main" = some routine ∧
      scopeAfterAll? .empty program = some slots ∧
      ∀ slot, StoredFirst routine.code slot ↔
        ∀ name found, slots.resolve? name = some found → found.slot = slot →
          allReadUnset name program = false := by
  obtain ⟨routine, tree, slots, found, main⟩ := classFile_ok made
  exact ⟨routine, slots, found, main.code.scopeAfter?_eq, main.storedFirst_iff⟩

/-- The code of the totals stores into every slot before it reads it. -/
theorem storedFirst_main_iff_totals :
    ∃ file routine, classFile ⟨"Totals", none⟩ totals = .ok file ∧
      file.routine? "main" = some routine ∧ ∀ slot, StoredFirst routine.code slot := by
  obtain ⟨file, made⟩ := exists_classFile_totals
  obtain ⟨routine, slots, found, scope, stored⟩ := storedFirst_main_iff made
  have scopeIs : scopeAfterAll? .empty totals = some ⟨[⟨"total", 1, .int⟩], 4⟩ := by decide
  obtain rfl := Option.some.inj (scope.symm.trans scopeIs)
  refine ⟨file, routine, made, found, fun slot => (stored slot).mpr ?_⟩
  intro name found resolved _
  -- Only `total` is known at the end: the counter has gone out of scope with its loop.
  obtain ⟨present, rfl⟩ := Slots.mem_of_resolve? resolved
  obtain rfl := List.mem_singleton.mp present
  decide

/-- A program whose only declaration is skipped. -/
def skipped : Program :=
  [.conditional (.literal (.boolean false) ⟨1, 2⟩)
      [.declare ⟨"answer", ⟨1, 5⟩⟩ (some (.literal (.boolean true) ⟨1, 12⟩))] [] [],
    .print (.name ⟨"answer", ⟨1, 16⟩⟩) ⟨1, 15⟩]

/-- The class of a program may read a local variable that nothing has been stored into. -/
theorem not_storedFirst_skipped :
    ∃ file routine, classFile ⟨"Skipped", none⟩ skipped = .ok file ∧
      file.routine? "main" = some routine ∧ ¬StoredFirst routine.code 1 := by
  obtain ⟨file, made⟩ : ∃ file, classFile ⟨"Skipped", none⟩ skipped = .ok file :=
    exists_classFile _ (by decide) (by decide)
  obtain ⟨routine, tree, slots, found, main⟩ := classFile_ok made
  have scope : scopeAfterAll? .empty skipped = some slots := main.code.scopeAfter?_eq
  have scopeIs : scopeAfterAll? .empty skipped = some ⟨[⟨"answer", 1, .boolean⟩], 2⟩ := by decide
  obtain rfl := Option.some.inj (scope.symm.trans scopeIs)
  refine ⟨file, routine, made, found, fun storedFirst => ?_⟩
  have unread := (main.storedFirst_iff 1).mp storedFirst "answer" _ rfl rfl
  exact absurd unread (by decide)

end Compile
end Pictogram
