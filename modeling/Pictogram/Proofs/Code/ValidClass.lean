import Pictogram.Proofs.Code.Links
import Pictogram.Proofs.Code.StackMap
import Pictogram.Proofs.Code.Ways

/-!
# The classes that are generated are valid

The code of both methods is a tree with a return behind it, so its branches have
all been filled in and lead to its instructions, and no walk leaves it.  What the
instructions name has been put into the pool before they were written.
-/

namespace Pictogram

namespace Machine

open Pictogram.Class (Pool Constant)

/-- Whether an action may name a constant. -/
def Action.mayName : Action → Constant → Bool
  | .constant _, .integer _ | .constant _, .stringRef _ => true
  | .field _, .fieldRef .. => true
  | .call _, .methodRef .. => true
  | _, _ => false

/-- An action that finds its operands names a constant that it can use. -/
theorem Action.names_of_retype?
    {pool : Pool}
    {action : Action}
    {stack next : List Kind}
    {index : UInt16}
    (retyped : action.retype? pool stack = some next)
    (named : action.index? = some index) :
    pool.names index action.mayName := by
  rw [Pool.names_iff]
  cases action with
  | constant place =>
      obtain rfl := Option.some.inj named
      obtain ⟨datum, stands, -⟩ := Option.bind_eq_some_iff.mp retyped
      unfold Datum.ofConstant? at stands
      split at stands
      · exact ⟨_, by assumption, rfl⟩
      · exact ⟨_, by assumption, rfl⟩
      · cases stands
  | field place =>
      obtain rfl := Option.some.inj named
      obtain ⟨known, -⟩ := Option.ite_none_right_eq_some.mp retyped
      unfold Pool.field? at known
      split at known
      · exact ⟨_, by assumption, rfl⟩
      · cases known
  | call place =>
      obtain rfl := Option.some.inj named
      simp only [retype?] at retyped
      split at retyped
      · obtain ⟨known, -⟩ := Option.ite_none_right_eq_some.mp retyped
        obtain ⟨method, found, -⟩ := Option.bind_eq_some_iff.mp known
        unfold Pool.method? at found
        split at found
        · exact ⟨_, by assumption, rfl⟩
        · cases found
      · cases retyped
  | _ => cases named

namespace Order

variable {order : Order} {action : Action} (means : order.action? = some action)
include means

/-- An instruction goes straight on if its action does. -/
theorem isStraight_of_action (straight : action.isStraight) : order.IsStraight := by
  obtain ⟨opcode, operands, complete⟩ := order
  simp only [action?] at means
  unfold Opcode.action? at means
  split at means
  · cases opcode <;> cases means <;>
      simp_all [Action.isStraight, IsStraight, Opcode.fallsThrough, Opcode.isBranch]
  · cases opcode <;> cases means <;> exact ⟨rfl, rfl⟩
  · cases opcode <;> cases means <;>
      simp_all [Action.isStraight, IsStraight, Opcode.fallsThrough, Opcode.isBranch]
  · cases means

/-- An opcode may name the constants that its action may. -/
theorem mayName_eq (named : action.index?.isSome) : order.opcode.mayName = action.mayName := by
  obtain ⟨opcode, operands, complete⟩ := order
  simp only [action?] at means
  unfold Opcode.action? at means
  funext constant
  split at means
  · cases opcode <;> cases means <;> simp [Action.index?] at named
  · cases opcode <;> cases means <;> cases named
    cases constant <;> rfl
  · cases opcode <;> cases means <;> cases named <;> cases constant <;> rfl
  · cases means

end Order
end Machine

namespace Compile

open Pictogram.Class (Pool Constant)
open Machine (Order Instruction Kind Routine ValidCode decode unfilled)

/-- A typed tree is orderly. -/
theorem Typed.orderly
    {pool : Pool}
    {tree : Tree}
    {address : Nat}
    {stack next : List Kind}
    {marks : List Mark}
    (typed : Typed pool tree address stack next marks) :
    tree.Orderly := by
  induction typed with
  | empty => trivial
  | plain means straight _ => exact Order.isStraight_of_action means straight
  | seq _ _ firstOrderly secondOrderly => exact ⟨firstOrderly, secondOrderly⟩
  | skip sometimes _ _ bodyOrderly => exact ⟨sometimes, bodyOrderly⟩
  | choose sometimes _ _ _ bodyOrderly restOrderly =>
      exact ⟨sometimes, bodyOrderly, restOrderly⟩
  | loop _ sometimes _ _ headOrderly bodyOrderly => exact ⟨headOrderly, sometimes, bodyOrderly⟩

/-- What the instructions of a tree name can be used by them. -/
def Tree.NamesWell (tree : Tree) (pool : Pool) : Prop :=
  ∀ order ∈ tree.orders, ∀ index, (order.standing 0).index? = some index →
    pool.names index order.opcode.mayName

theorem index?_branch (test : Machine.Test) (offset : Int) :
    ((Order.branch test offset).standing 0).index? = none := by
  cases test <;> rfl

/-- The instructions of a typed tree can use what they name. -/
theorem Typed.namesWell
    {pool : Pool}
    {tree : Tree}
    {address : Nat}
    {stack next : List Kind}
    {marks : List Mark}
    (typed : Typed pool tree address stack next marks) :
    tree.NamesWell pool := by
  have branch (test : Machine.Test) (offset : Int) : ∀ index,
      ((Order.branch test offset).standing 0).index? = some index →
      pool.names index (Order.branch test offset).opcode.mayName := by
    simp [index?_branch]
  unfold Tree.NamesWell
  induction typed with
  | empty => simp [Tree.orders]
  | plain means _ retyped =>
      simp only [Tree.orders, List.mem_singleton, forall_eq]
      intro index named
      rw [(Order.uses_standing _ 0 means).2.2] at named
      rw [Order.mayName_eq means (by simp [named])]
      exact Machine.Action.names_of_retype? retyped named
  | seq _ _ firstNames secondNames =>
      exact List.forall_mem_append.mpr ⟨firstNames, secondNames⟩
  | skip _ _ _ bodyNames => exact List.forall_mem_cons.mpr ⟨branch _ _, bodyNames⟩
  | choose _ _ _ _ bodyNames restNames =>
      exact List.forall_mem_append.mpr ⟨List.forall_mem_cons.mpr ⟨branch _ _, bodyNames⟩,
        List.forall_mem_cons.mpr ⟨branch _ _, restNames⟩⟩
  | loop _ _ _ _ headNames bodyNames =>
      exact List.forall_mem_append.mpr ⟨List.forall_mem_append.mpr ⟨headNames,
        List.forall_mem_cons.mpr ⟨branch _ _, bodyNames⟩⟩, by simpa using branch _ _⟩

/-! ## Code that can be followed -/

/-- A branch has been filled in, unless it leads one byte back. -/
theorem operands_branch_ne_unfilled
    (test : Machine.Test)
    {offset : Int}
    (least : -32768 ≤ offset)
    (greatest : offset ≤ 32767)
    (filled : offset ≠ -1) :
    (Order.branch test offset).operands ≠ unfilled := by
  intro same
  have back : Bytes.toInt (Order.branch test offset).operands = offset :=
    Bytes.toInt_signed_two least greatest
  have placeholder : Bytes.toInt unfilled = -1 := by decide
  rw [same, placeholder] at back
  exact filled back.symm

/-- The branches of a tree have been filled in. -/
theorem Tree.filled
    {tree : Tree}
    {address : Nat}
    (orderly : tree.Orderly)
    (fits : tree.Fits) :
    ∀ branch ∈ tree.instructions address, branch.opcode.isBranch →
      branch.operands ≠ unfilled ∧ ∃ target, branch.target? = some target := by
  have written (test : Machine.Test) {offset : Int} {address : Nat} (target : Nat)
      (least : -32768 ≤ offset) (greatest : offset ≤ 32767)
      (leads : (target : Int) = address + offset) (away : offset ≠ -1) :
      ((Order.branch test offset).standing address).opcode.isBranch →
        ((Order.branch test offset).standing address).operands ≠ unfilled ∧
        ∃ target, ((Order.branch test offset).standing address).target? = some target := fun _ =>
    ⟨operands_branch_ne_unfilled test least greatest away, target,
      Order.target?_branch test least greatest leads⟩
  induction tree generalizing address with
  | empty => simp
  | plain order =>
      rw [instructions_plain, List.forall_mem_singleton]
      intro isBranch
      simp [orderly.2] at isBranch
  | seq first second firstFilled secondFilled =>
      rw [instructions_seq, List.forall_mem_append]
      exact ⟨firstFilled orderly.1 fits.1, secondFilled orderly.2 fits.2⟩
  | skip test body bodyFilled =>
      obtain ⟨bodyFits, near⟩ := fits
      rw [instructions_skip, List.forall_mem_cons]
      exact ⟨written test (address + (3 + body.size)) (by omega) (by omega) (by omega) (by omega),
        bodyFilled orderly.2 bodyFits⟩
  | choose test body rest bodyFilled restFilled =>
      obtain ⟨bodyFits, restFits, near, restNear⟩ := fits
      rw [instructions_choose, List.forall_mem_cons, List.forall_mem_append, List.forall_mem_cons]
      exact ⟨written test (address + (3 + body.size + 3)) (by omega) (by omega) (by omega)
          (by omega),
        bodyFilled orderly.2.1 bodyFits,
        written .always (address + (3 + body.size + (3 + rest.size))) (by omega) (by omega)
          (by omega) (by omega),
        restFilled orderly.2.2 restFits⟩
  | loop head test body headFilled bodyFilled =>
      obtain ⟨headFits, bodyFits, near, back⟩ := fits
      rw [instructions_loop, List.forall_mem_append, List.forall_mem_cons, List.forall_mem_append,
        List.forall_mem_singleton]
      exact ⟨headFilled orderly.1 headFits,
        written test (address + (head.size + (3 + body.size + 3))) (by omega) (by omega)
          (by omega) (by omega),
        bodyFilled orderly.2.2 bodyFits,
        written .always address (by omega) (by omega) (by omega) (by omega)⟩

/-- The local variables that the instructions of a tree use are below a bound. -/
def Tree.StaysBelow (tree : Tree) (bound : Nat) : Prop :=
  ∀ order ∈ tree.orders, ∀ slot : UInt8,
    (order.standing 0).reads? = some slot ∨ (order.standing 0).stores? = some slot →
    slot.toNat < bound

/-- An instruction that reads or stores a local variable has access to it. -/
theorem access?_of_uses
    {order : Order}
    {slot : UInt8}
    (uses : (order.standing 0).reads? = some slot ∨ (order.standing 0).stores? = some slot) :
    ∃ cell, access? order = some (slot, cell) := by
  obtain ⟨opcode, operands, complete⟩ := order
  cases opcode with
  | loadAt cell place | storeAt cell place =>
      obtain rfl := List.length_eq_zero_iff.mp complete
      simp only [Instruction.reads?, Instruction.stores?, Order.standing, Option.some.injEq,
        reduceCtorEq, or_false, false_or] at uses
      exact ⟨cell, by rw [← uses]; rfl⟩
  | load cell | store cell =>
      obtain ⟨operand, rfl⟩ := List.length_eq_one_iff.mp complete
      simp only [Instruction.reads?, Instruction.stores?, Order.standing, List.head?_cons,
        Option.some.injEq, reduceCtorEq, or_false, false_or] at uses
      exact ⟨cell, by rw [← uses]; rfl⟩
  | increment =>
      obtain ⟨first, second, rfl⟩ := List.length_eq_two.mp complete
      simp only [Instruction.reads?, Instruction.stores?, Order.standing, List.head?_cons,
        Option.some.injEq, reduceCtorEq, or_false] at uses
      exact ⟨.int, by rw [← uses]; rfl⟩
  | _ => simp [Instruction.reads?, Instruction.stores?, Order.standing] at uses

/-- A tree that obeys a bound on its local variables stays below it. -/
theorem Tree.Obeys.staysBelow
    {tree : Tree}
    {cells : UInt8 → Machine.Cell}
    {bound : Nat}
    (obeys : tree.Obeys cells bound) :
    tree.StaysBelow bound := by
  intro order present slot uses
  obtain ⟨cell, accesses⟩ := access?_of_uses uses
  exact (obeys (slot, cell) (List.mem_filterMap.mpr ⟨order, present, accesses⟩)).1

/-- A tree with a return behind it can be followed. -/
theorem Finished.valid
    {code : List UInt8}
    {tree : Tree}
    {pool : Pool}
    {maxLocals : UInt16}
    (finished : Finished code tree)
    (names : tree.NamesWell pool)
    (below : tree.StaysBelow maxLocals.toNat) :
    ValidCode pool maxLocals code := by
  have decoded := finished.decode_eq
  have last : Order.leave.standing tree.size ∈ decode code := by simp [decoded]
  have free : ∀ instruction : Instruction, (fun _ => false) instruction = false := fun _ => rfl
  have arrived {place : Nat} (arrives : tree.Arrives (fun _ => false) 0 place) :
      ∃ instruction ∈ decode code, instruction.address = place := by
    rcases arrives with ⟨instruction, reached, here⟩ | ⟨-, rfl⟩
    · exact ⟨instruction, by simp [decoded, reached.mem_instructions], here⟩
    · exact ⟨_, last, by simp⟩
  -- The return uses nothing and is no branch.
  have inTree {instruction : Instruction} (present : instruction ∈ decode code)
      (other : instruction.opcode ≠ .leave) : instruction ∈ tree.instructions 0 := by
    rw [decoded, List.mem_append, List.mem_singleton] at present
    rcases present with inside | rfl
    · exact inside
    · exact absurd rfl other
  refine ⟨?_, ?_, ?_, ?_, ?_⟩
  · rw [finished.bytes, Tree.bytes, Order.decode_listBytes]
    exact Order.flatMap_bytes_place _ _
  · intro branch present isBranch
    have inside := inTree present (by rintro same; simp [same, Machine.Opcode.isBranch] at isBranch)
    obtain ⟨filled, target, leads⟩ :=
      Tree.filled finished.orderly finished.fits branch inside isBranch
    have reaches := Tree.reaches_of_free free inside
    obtain ⟨there, isThere, here⟩ :=
      arrived (reaches.step finished.orderly finished.fits rfl (.inr leads))
    exact ⟨filled, there, isThere, by rw [leads, here]⟩
  · intro passed place walk
    exact arrived (finished.arrives ⟨passed, walk, fun _ _ => rfl⟩)
  · intro instruction present slot uses
    have inside := inTree present (by
      rintro same
      simp [Instruction.reads?, Instruction.stores?, same] at uses)
    obtain ⟨order, isOrder, address, rfl⟩ := Order.mem_place inside
    exact below order isOrder slot uses
  · intro instruction present index named
    have inside := inTree present (by
      rintro same
      simp [Instruction.index?, same] at named)
    obtain ⟨order, isOrder, address, rfl⟩ := Order.mem_place inside
    exact names order isOrder index named

end Compile

/-! ## Validity in a pool with more constants -/

section Extends

open Pictogram.Class (Pool)

variable {first second : Pool}

/-- Valid code stays valid when the pool is extended. -/
theorem Machine.ValidCode.mono
    {maxLocals : UInt16}
    {code : List UInt8}
    (valid : Machine.ValidCode first maxLocals code)
    (kept : first.Extends second) :
    Machine.ValidCode second maxLocals code :=
  { valid with
    constants := fun instruction present index named =>
      kept.names (valid.constants instruction present index named) }

mutual

theorem Class.Attribute.Valid.mono (kept : first.Extends second) :
    {carried : Class.Attribute} → carried.Valid first → carried.Valid second
  | .code .. => fun ⟨named, valid, nested⟩ =>
    ⟨kept.names named, valid.mono kept, Class.AttributesValid.mono kept nested⟩
  | .sourceFile .. => fun ⟨named, file⟩ => ⟨kept.names named, kept.names file⟩

theorem Class.AttributesValid.mono (kept : first.Extends second) :
    {attributes : List Class.Attribute} →
      Class.AttributesValid first attributes → Class.AttributesValid second attributes
  | [] => fun _ => trivial
  | _ :: _ => fun ⟨valid, rest⟩ =>
    ⟨Class.Attribute.Valid.mono kept valid, Class.AttributesValid.mono kept rest⟩

end

/-- A valid method stays valid when the pool is extended. -/
theorem Class.Method.Valid.mono
    {method : Class.Method}
    (valid : method.Valid first)
    (kept : first.Extends second) :
    method.Valid second :=
  ⟨kept.names valid.name, kept.names valid.descriptor, .mono kept valid.attributes⟩

end Extends

namespace Compile

open Pictogram.Class (Pool Constant)
open Machine (Order Routine ValidCode)

/-- A method that has code and nothing else. -/
def HasOnlyCode (method : Class.Method) : Prop :=
  ∃ name maxStack maxLocals code, method.attributes = [.code name maxStack maxLocals code []]

/-- The code of the constructor without its return. -/
def constructorTree (superConstructor : UInt16) : Tree :=
  .seq (.plain ⟨.loadReceiver, [], List.length_nil⟩)
    (.plain ⟨.invokeSpecial, Bytes.word superConstructor,
      Bytes.length_unsigned 2 superConstructor.toNat⟩)

/-- The code of the constructor is that of its tree, and a return. -/
theorem finished_constructor (superConstructor : UInt16) :
    Finished (constructorCode superConstructor).bytes.toList
      (constructorTree superConstructor) where
  bytes := rfl
  fits := ⟨trivial, trivial⟩
  orderly := ⟨⟨rfl, rfl⟩, rfl, rfl⟩

/-- An index that a method is found at may be called. -/
theorem names_of_method?
    {pool : Pool}
    {index : UInt16}
    {member : Pool.Member}
    (found : pool.method? index = some member) :
    pool.names index (Machine.Opcode.mayName .invokeSpecial) := by
  unfold Pool.method? at found
  split at found
  · rename_i owner signature stands
    exact Pool.names_iff.mpr ⟨_, stands, rfl⟩
  · cases found

/-- The code of the constructor is valid, if it names the constructor that it calls. -/
theorem constructorCode_valid
    {pool : Pool}
    {superConstructor : UInt16}
    (named : pool.names superConstructor (Machine.Opcode.mayName .invokeSpecial)) :
    ValidCode pool 1 (constructorCode superConstructor).bytes.toList := by
  have back := Bytes.ofNat_toNat_word superConstructor
  refine (finished_constructor superConstructor).valid ?_ ?_
  · simp [Tree.NamesWell, constructorTree, Tree.orders, Machine.Opcode.loadReceiver,
      Machine.Instruction.index?, back, named]
  · simp [Tree.StaysBelow, constructorTree, Tree.orders, Machine.Opcode.loadReceiver,
      Machine.Instruction.reads?, Machine.Instruction.stores?]

/-- The constructor is valid in the pool that it leaves. -/
theorem constructor_valid
    {pool after : Pool}
    {codeName : UInt16}
    {method : Class.Method}
    (before : pool.WellLinked)
    (codeNamed : pool.names codeName Constant.isText)
    (made : constructor codeName pool = .ok method after) :
    after.WellLinked ∧ pool.Extends after ∧ method.Valid after ∧ HasOnlyCode method := by
  obtain ⟨superConstructor, referred, referring, made⟩ := Stateful.bind_eq_ok.mp made
  have referredLinked := Pool.methodRef_wellLinked before referring
  obtain ⟨referredAdded, member⟩ := Pool.methodRef_ok before.sound referring
  obtain ⟨name, named, naming, made⟩ := Stateful.bind_eq_ok.mp made
  have namedLinked := Pool.text_wellLinked referredLinked naming
  obtain ⟨namedAdded, nameStands⟩ := Pool.text_ok referredLinked.sound naming
  obtain ⟨descriptor, described, describing, made⟩ := Stateful.bind_eq_ok.mp made
  have describedLinked := Pool.text_wellLinked namedLinked describing
  obtain ⟨describedAdded, descriptorStands⟩ := Pool.text_ok namedLinked.sound describing
  obtain ⟨rfl, rfl⟩ := Stateful.pure_eq_ok.mp made
  have later := namedAdded.kept.trans describedAdded.kept
  have throughout := referredAdded.kept.trans later
  have isMethod : described.names superConstructor (Machine.Opcode.mayName .invokeSpecial) :=
    later.names (names_of_method? member)
  refine ⟨describedLinked, throughout, ⟨?_, Pool.names_of_text? descriptorStands, ?_⟩,
    ⟨_, _, _, _, rfl⟩⟩
  · exact describedAdded.kept.names (Pool.names_of_text? nameStands)
  · exact ⟨⟨throughout.names codeNamed, constructorCode_valid isMethod, trivial⟩, trivial⟩

/-- The code of the main method is valid. -/
theorem MainCode.valid
    {program : Program}
    {routine : Routine}
    {tree : Tree}
    {slots : Slots}
    (main : MainCode program routine tree slots) :
    ValidCode routine.pool routine.maxLocals routine.code := by
  obtain ⟨marks, typed⟩ := main.code.typed 0 []
  obtain ⟨cells, obeys⟩ := main.obeys
  have finished : Finished routine.code tree := ⟨main.bytes, main.fits, typed.orderly⟩
  exact finished.valid typed.namesWell obeys.staysBelow

/-- The opening names its constants in the pool that it leaves. -/
theorem opening_valid
    {options : Options}
    {pool after : Pool}
    {opened : Opening}
    (before : pool.WellLinked)
    (made : opening options pool = .ok opened after) :
    after.WellLinked ∧ after.names opened.thisClass Constant.isClass ∧
      after.names opened.superClass Constant.isClass ∧
      after.names opened.codeName Constant.isText ∧
      opened.constructor.Valid after ∧ HasOnlyCode opened.constructor := by
  obtain ⟨thisClass, first, addingThis, made⟩ := Stateful.bind_eq_ok.mp made
  have firstLinked := Pool.classRef_wellLinked before addingThis
  obtain ⟨-, thisStands⟩ := Pool.classRef_ok before.sound addingThis
  obtain ⟨superClass, second, addingSuper, made⟩ := Stateful.bind_eq_ok.mp made
  have secondLinked := Pool.classRef_wellLinked firstLinked addingSuper
  obtain ⟨secondAdded, superStands⟩ := Pool.classRef_ok firstLinked.sound addingSuper
  obtain ⟨codeName, third, addingName, made⟩ := Stateful.bind_eq_ok.mp made
  have thirdLinked := Pool.text_wellLinked secondLinked addingName
  obtain ⟨thirdAdded, nameStands⟩ := Pool.text_ok secondLinked.sound addingName
  have codeNamed := Pool.names_of_text? nameStands
  obtain ⟨method, fourth, making, made⟩ := Stateful.bind_eq_ok.mp made
  obtain ⟨linked, kept, valid, onlyCode⟩ := constructor_valid thirdLinked codeNamed making
  obtain ⟨rfl, rfl⟩ := Stateful.pure_eq_ok.mp made
  have afterSuper := thirdAdded.kept.trans kept
  refine ⟨linked, ?_, ?_, kept.names codeNamed, valid, onlyCode⟩
  · exact (secondAdded.kept.trans afterSuper).names (Pool.names_of_className? thisStands)
  · exact afterSuper.names (Pool.names_of_className? superStands)

/-- The closing leaves a valid main method and valid attributes, if the code of the draft is valid
in every later pool. -/
theorem closing_valid
    {options : Options}
    {draft : Draft}
    {pool after : Pool}
    {main : Class.Method}
    {attributes : List Class.Attribute}
    (before : pool.WellLinked)
    (codeNamed : pool.names draft.opening.codeName Constant.isText)
    (code : ∀ later, pool.Extends later → ValidCode later draft.maxLocals draft.code)
    (made : closing options draft pool = .ok (main, attributes) after) :
    after.Linked ∧ pool.Extends after ∧ main.Valid after ∧ HasOnlyCode main ∧
      Class.AttributesValid after attributes := by
  obtain ⟨name, first, naming, made⟩ := Stateful.bind_eq_ok.mp made
  have firstLinked := Pool.text_wellLinked before naming
  obtain ⟨firstAdded, nameStands⟩ := Pool.text_ok before.sound naming
  obtain ⟨descriptor, second, describing, made⟩ := Stateful.bind_eq_ok.mp made
  have secondLinked := Pool.text_wellLinked firstLinked describing
  obtain ⟨secondAdded, descriptorStands⟩ := Pool.text_ok firstLinked.sound describing
  obtain ⟨sourceName, third, addingSource, made⟩ := Stateful.bind_eq_ok.mp made
  have thirdLinked := Pool.text_wellLinked secondLinked addingSource
  obtain ⟨thirdAdded, sourceStands⟩ := Pool.text_ok secondLinked.sound addingSource
  obtain ⟨sourceFile, fourth, addingFile, made⟩ := Stateful.bind_eq_ok.mp made
  have fourthLinked := Pool.text_wellLinked thirdLinked addingFile
  obtain ⟨fourthAdded, fileStands⟩ := Pool.text_ok thirdLinked.sound addingFile
  obtain ⟨same, rfl⟩ := Stateful.pure_eq_ok.mp made
  obtain ⟨rfl, rfl⟩ := Prod.mk.inj same
  have afterDescriptor := thirdAdded.kept.trans fourthAdded.kept
  have afterName := secondAdded.kept.trans afterDescriptor
  have throughout := firstAdded.kept.trans afterName
  refine ⟨fourthLinked.linked, throughout, ⟨?_, ?_, ?_, trivial⟩, ⟨_, _, _, _, rfl⟩, ?_, trivial⟩
  · exact afterName.names (Pool.names_of_text? nameStands)
  · exact afterDescriptor.names (Pool.names_of_text? descriptorStands)
  · exact ⟨throughout.names codeNamed, code _ throughout, trivial⟩
  · exact ⟨fourthAdded.kept.names (Pool.names_of_text? sourceStands),
      Pool.names_of_text? fileStands⟩

/-- The pool of a draft is linked, and what the class began with is valid in it. -/
theorem draft_valid
    {options : Options}
    {program : Program}
    {drafted : Draft}
    (made : draft options program = .ok drafted) :
    drafted.pool.WellLinked ∧ drafted.pool.names drafted.opening.thisClass Constant.isClass ∧
      drafted.pool.names drafted.opening.superClass Constant.isClass ∧
      drafted.pool.names drafted.opening.codeName Constant.isText ∧
      drafted.opening.constructor.Valid drafted.pool ∧
      HasOnlyCode drafted.opening.constructor := by
  unfold draft at made
  cases opened : opening options .empty with
  | error error pool =>
      rw [opened] at made
      cases made
  | ok opening pool =>
      obtain ⟨linked, isThis, isSuper, codeNamed, valid, onlyCode⟩ :=
        opening_valid Pool.wellLinked_empty opened
      cases written : mainBody program (.empty pool) with
      | error error body =>
          simp only [opened, written] at made
          cases made
      | ok done body =>
          have keeps : KeepsLinks (mainBody program) :=
            .bind (keepsLinks_statements program) fun _ => .write _
          have bodyLinked := keeps _ _ _ linked written
          obtain ⟨tree, wrote, -⟩ := mainBody_ok linked.sound written
          have kept := wrote.pool.kept
          simp only [opened, written, Code.finish] at made
          by_cases within : body.code.bytes.size ≤ Code.sizeLimit
          · rw [if_pos within] at made
            obtain rfl := Except.ok.inj made
            exact ⟨bodyLinked, kept.names isThis, kept.names isSuper, kept.names codeNamed,
              valid.mono kept, onlyCode⟩
          · rw [if_neg within] at made
            cases made

/-- Every class that is generated is valid, and its two methods, the constructor and
`main`, have code and nothing else. -/
theorem valid_classFile
    {options : Options}
    {program : Program}
    {file : Class.File}
    (made : classFile options program = .ok file) :
    file.Valid ∧ ∃ constructor main, file.methods = [constructor, main] ∧
      HasOnlyCode constructor ∧ HasOnlyCode main := by
  obtain ⟨drafted, drafting, made⟩ : ∃ drafted, draft options program = .ok drafted ∧
      drafted.classFile options = .ok file := by
    unfold classFile at made
    cases drafting : draft options program with
    | error error =>
        rw [drafting] at made
        cases made
    | ok drafted => exact ⟨drafted, rfl, by rwa [drafting] at made⟩
  obtain ⟨linked, isThis, isSuper, codeNamed, constructorValid, constructorCode⟩ :=
    draft_valid drafting
  obtain ⟨-, -, tree, slots, main⟩ := draft_ok drafting
  unfold Draft.classFile at made
  cases closed : closing options drafted drafted.pool with
  | error error pool =>
      rw [closed] at made
      cases made
  | ok result pool =>
      obtain ⟨method, attributes⟩ := result
      obtain ⟨poolLinked, kept, mainValid, mainCode, attributesValid⟩ :=
        closing_valid linked codeNamed (fun later extended => (main later extended).valid) closed
      rw [closed] at made
      obtain rfl := Except.ok.inj made
      refine ⟨⟨poolLinked, kept.names isThis, kept.names isSuper, ?_, attributesValid⟩,
        drafted.opening.constructor, method, rfl, constructorCode, mainCode⟩
      intro other present
      simp only [List.mem_cons, List.not_mem_nil, or_false] at present
      rcases present with rfl | rfl
      · exact constructorValid.mono kept
      · exact mainValid

theorem valid_classFile_totals :
    ∃ file, classFile ⟨"Totals", none⟩ totals = .ok file ∧ file.Valid ∧
      ∃ constructor main, file.methods = [constructor, main] ∧
        HasOnlyCode constructor ∧ HasOnlyCode main := by
  obtain ⟨file, made⟩ := exists_classFile_totals
  exact ⟨file, made, valid_classFile made⟩

end Compile
end Pictogram
