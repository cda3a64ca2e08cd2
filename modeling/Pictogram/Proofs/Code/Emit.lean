import Pictogram.Compile.Emit
import Pictogram.Proofs.Code.Growth
import Pictogram.Proofs.Code.Pool
import Pictogram.Proofs.Code.Slots

/-!
# The generator's single steps

What each step of the generator leaves behind when it is not refused.  Which of
several encodings an instruction gets is settled here; later modules only know
what the instruction does.
-/

namespace Pictogram

namespace Compile

/-- An offset that two bytes can hold. -/
def InReach (offset : Int) : Prop := -32768 ≤ offset ∧ offset ≤ 32767

instance (offset : Int) : Decidable (InReach offset) :=
  inferInstanceAs (Decidable (-32768 ≤ offset ∧ offset ≤ 32767))

end Compile

namespace Machine

open Pictogram.Class (Pool)
open Pictogram.Compile (InReach)

/-- How an action changes the height of the stack. -/
def Action.change : Action → Int
  | .push _ | .constant _ | .load .. | .dup | .field _ => 1
  | .store .. | .pop | .arithmetic _ => -1
  | .negate | .increment .. | .leave => 0
  | .branch test _ => test.change
  | .call _ => -2

namespace Order

/-- An instruction changes the height of the stack as its action does. -/
theorem change_eq
    {order : Order}
    {action : Action}
    (means : order.action? = some action) :
    order.change = action.change := by
  obtain ⟨opcode, operands, complete⟩ := order
  simp only [action?] at means
  unfold Opcode.action? at means
  split at means
  · cases opcode <;> cases means <;> rfl
  · cases opcode <;> cases means <;> rfl
  · cases opcode <;> cases means <;> rfl
  · cases means

/-- The opcode of an instruction that pushes one operand says so. -/
theorem stackEffect?_eq_one
    {order : Order}
    (pushes : order.change = 1) :
    order.opcode.stackEffect? = some 1 := by
  unfold change at pushes
  cases effect : order.opcode.stackEffect? with
  | none => simp [effect] at pushes
  | some change => simpa [effect] using pushes

/-- An instruction that joins two integers. -/
def arithmetic (operation : Arithmetic) : Order := ⟨.arithmetic operation, [], rfl⟩

/-- An instruction that turns the sign. -/
def negate : Order := ⟨.negate, [], rfl⟩

/-- An instruction that doubles the uppermost operand. -/
def dup : Order := ⟨.dup, [], rfl⟩

/-- An instruction that drops the uppermost operand. -/
def pop : Order := ⟨.pop, [], rfl⟩

/-- An instruction that returns. -/
def leave : Order := ⟨.leave, [], rfl⟩

/-- An instruction that pushes a number less one. -/
def iconst (successor : Fin 7) : Order := ⟨.iconst successor, [], rfl⟩

/-- An instruction that adds one to a local. -/
def increment (slot : UInt8) : Order := ⟨.increment, [slot, 1], rfl⟩

/-- An instruction that pushes a field. -/
def field (index : UInt16) : Order := ⟨.getStatic, Bytes.word index, rfl⟩

/-- An instruction that calls a method. -/
def call (index : UInt16) : Order := ⟨.invokeVirtual, Bytes.word index, rfl⟩

/-- An instruction that pushes a local. -/
def load (cell : Cell) (slot : UInt8) : Order :=
  if low : slot.toNat < 4 then ⟨.loadAt cell ⟨slot.toNat, low⟩, [], rfl⟩
  else ⟨.load cell, [slot], rfl⟩

/-- An instruction that pops into a local. -/
def store (cell : Cell) (slot : UInt8) : Order :=
  if low : slot.toNat < 4 then ⟨.storeAt cell ⟨slot.toNat, low⟩, [], rfl⟩
  else ⟨.store cell, [slot], rfl⟩

/-- An instruction that pushes a constant. -/
def constant (index : UInt16) : Order :=
  if index.toNat < 256 then ⟨.ldc, [index.toUInt8], rfl⟩
  else ⟨.ldcWide, Bytes.word index, rfl⟩

theorem successor_lt {number : Int} (small : -1 ≤ number ∧ number ≤ 5) :
    (number + 1).toNat < 7 := by omega

/-- An instruction that pushes an integer, from an index of the pool if no operand can hold it. -/
def int (value : Int32) (index : UInt16) : Order :=
  let number := value.toInt
  if small : -1 ≤ number ∧ number ≤ 5 then iconst ⟨_, successor_lt small⟩
  else if -128 ≤ number ∧ number ≤ 127 then
    ⟨.bipush, Bytes.signed 1 number, by simp [Opcode.operandSize]⟩
  else if -32768 ≤ number ∧ number ≤ 32767 then
    ⟨.sipush, Bytes.signed 2 number, by simp [Opcode.operandSize]⟩
  else constant index

/-- An instruction that pushes a local stands for that action, in its short form and in its long
one. -/
theorem action?_load (cell : Cell) (slot : UInt8) :
    (load cell slot).action? = some (.load cell slot) := by
  unfold load
  split <;> simp [action?, Opcode.action?, Opcode.plainAction?, Opcode.byteAction?]

/-- So does an instruction that pops into a local. -/
theorem action?_store (cell : Cell) (slot : UInt8) :
    (store cell slot).action? = some (.store cell slot) := by
  unfold store
  split <;> simp [action?, Opcode.action?, Opcode.plainAction?, Opcode.byteAction?]

theorem word_eq_pair (index : UInt16) :
    ∃ first second, Bytes.word index = [first, second] ∧
      UInt16.ofNat (Bytes.toNat [first, second]) = index := by
  obtain ⟨first, second, both⟩ := List.length_eq_two.mp (Bytes.length_unsigned 2 index.toNat)
  refine ⟨first, second, both, ?_⟩
  have back := Bytes.ofNat_toNat_word index
  rwa [Bytes.word, both] at back

/-- An instruction that pushes a constant stands for that action, however long the index is. -/
theorem action?_constant (index : UInt16) :
    (constant index).action? = some (.constant index) := by
  unfold constant
  split
  · rename_i low
    have back : index.toUInt8.toUInt16 = index := by
      apply UInt16.toNat_inj.mp
      simp only [UInt8.toNat_toUInt16, UInt16.toNat_toUInt8]
      omega
    simp [action?, Opcode.action?, Opcode.byteAction?, back]
  · obtain ⟨first, second, both, back⟩ := word_eq_pair index
    simp only [action?, both, Opcode.action?, Opcode.pairAction?, back]

/-- An integer that an operand can hold is pushed by its operand. -/
theorem action?_int
    {value : Int32}
    (near : InReach value.toInt)
    (index : UInt16) :
    (int value index).action? = some (.push value) := by
  unfold InReach at near
  unfold int
  dsimp only
  split
  · have back : ((value.toInt + 1).toNat : Int) - 1 = value.toInt := by omega
    simp only [iconst, action?, Opcode.action?, Opcode.plainAction?, back, Int32.ofInt_toInt]
  · split
    · rename_i byte
      obtain ⟨operand, single⟩ := List.length_eq_one_iff.mp (Bytes.length_signed 1 value.toInt)
      have back := Bytes.toInt_signed_one byte.1 byte.2
      rw [single] at back
      simp [action?, single, Opcode.action?, Opcode.byteAction?, back]
    · obtain ⟨first, second, both⟩ := List.length_eq_two.mp (Bytes.length_signed 2 value.toInt)
      have back := Bytes.toInt_signed_two near.1 near.2
      rw [both] at back
      simp [action?, both, Opcode.action?, Opcode.pairAction?, back]

/-- An integer that two bytes cannot hold is pushed from the pool. -/
theorem int_far
    {value : Int32}
    (far : ¬InReach value.toInt)
    (index : UInt16) :
    int value index = constant index := by
  unfold InReach at far
  unfold int
  dsimp only
  rw [dif_neg (by omega), if_neg (by omega), if_neg far]

theorem action?_field (index : UInt16) : (field index).action? = some (.field index) := by
  obtain ⟨first, second, both, back⟩ := word_eq_pair index
  simp only [field, action?, both, Opcode.action?, Opcode.pairAction?, back]

theorem action?_call (index : UInt16) : (call index).action? = some (.call index) := by
  obtain ⟨first, second, both, back⟩ := word_eq_pair index
  simp only [call, action?, both, Opcode.action?, Opcode.pairAction?, back]

theorem action?_increment (slot : UInt8) :
    (increment slot).action? = some (.increment slot 1) := by
  simp [increment, action?, Opcode.action?, Opcode.pairAction?]
  decide

@[simp] theorem change_load (cell : Cell) (slot : UInt8) : (load cell slot).change = 1 :=
  change_eq (action?_load cell slot)

@[simp] theorem change_store (cell : Cell) (slot : UInt8) : (store cell slot).change = -1 :=
  change_eq (action?_store cell slot)

@[simp] theorem change_arithmetic (operation : Arithmetic) :
    (arithmetic operation).change = -1 := rfl

@[simp] theorem change_negate : negate.change = 0 := rfl

@[simp] theorem change_dup : dup.change = 1 := rfl

@[simp] theorem change_pop : pop.change = -1 := rfl

@[simp] theorem change_leave : leave.change = 0 := rfl

@[simp] theorem change_iconst (successor : Fin 7) : (iconst successor).change = 1 := rfl

@[simp] theorem change_increment (slot : UInt8) : (increment slot).change = 0 := rfl

@[simp] theorem change_field (index : UInt16) : (field index).change = 1 := rfl

@[simp] theorem change_call (index : UInt16) : (call index).change = -2 := rfl

/-- An instruction that pushes a datum, by its operand or from the pool. -/
inductive Pushes (pool : Pool) (order : Order) : Datum → Prop
  | operand {value : Int32} :
      order.action? = some (.push value) → Pushes pool order (.int value)
  | constant {index : UInt16} {datum : Datum} :
      order.action? = some (.constant index) → Datum.ofConstant? pool index = some datum →
      Pushes pool order datum

/-- An instruction that pushes a datum makes the stack one higher. -/
theorem Pushes.change_eq
    {pool : Pool}
    {order : Order}
    {datum : Datum}
    (pushes : order.Pushes pool datum) :
    order.change = 1 := by
  cases pushes with
  | operand means => exact Order.change_eq means
  | constant means stands => exact Order.change_eq means

end Order
end Machine

namespace Compile

open Pictogram.Class (Pool)
open Machine (Datum Order Test Cell Opcode)

/-- The generator loads a constant by the instruction that pushes it. -/
theorem Code.loadConstant_eq (code : Code) (index : UInt16) :
    code.loadConstant index =
      code.append (Order.constant index).opcode (Order.constant index).operands := by
  unfold Code.loadConstant Order.constant
  split <;> rfl

namespace Body

/-- A body to which the generator may go on writing. -/
structure Sound (body : Body) : Prop where
  /-- The constants stand where they are said to. -/
  pool : body.pool.Sound
  /-- The height of the stack has been taken into account. -/
  settled : body.code.Settled

/-- The second body is the first with the code of a tree. -/
structure Wrote (before : Body) (tree : Tree) (after : Body) : Prop where
  /-- Constants have been added. -/
  pool : Pool.Added before.pool after.pool
  /-- The code has been added. -/
  code : after.code = before.code.extend tree
  /-- The offsets of branches could be written. -/
  fits : tree.Fits

namespace Wrote

variable {before middle after : Body}

/-- A body stays sound when code is written to it. -/
theorem sound
    {tree : Tree}
    (wrote : before.Wrote tree after) :
    after.Sound :=
  ⟨wrote.pool.sound, by rw [wrote.code]; exact before.code.settled_extend tree⟩

theorem refl (sound : before.Sound) : before.Wrote .empty before :=
  ⟨⟨sound.pool, .refl _⟩, (Code.extend_empty sound.settled).symm, trivial⟩

/-- Trees that are written one after the other are written as a sequence. -/
theorem seq
    {first second : Tree}
    (earlier : before.Wrote first middle)
    (later : middle.Wrote second after) :
    before.Wrote (.seq first second) after :=
  ⟨earlier.pool.trans later.pool,
    by rw [Code.extend_seq, ← earlier.code, later.code],
    earlier.fits, later.fits⟩

/-- A change of the scope writes nothing. -/
theorem slots
    {tree : Tree}
    (wrote : before.Wrote tree after)
    (slots : Slots) :
    before.Wrote tree { after with slots } :=
  ⟨wrote.pool, wrote.code, wrote.fits⟩

/-- One instruction. -/
theorem plain
    {body : Body}
    (sound : body.Sound)
    (order : Order)
    {change : Int}
    (known : order.opcode.stackEffect? = some change) :
    body.Wrote (.plain order)
      { body with code := body.code.append order.opcode order.operands } :=
  ⟨⟨sound.pool, .refl _⟩, Code.append_eq_extend sound.settled order known, trivial⟩

end Wrote
end Body

namespace Emit

variable {α : Type} {before after : Body} {value : α}

/-- A change of the pool changes nothing else. -/
theorem onPool_ok
    {build : Pool.Build α}
    (done : onPool build before = .ok value after) :
    build before.pool = .ok value after.pool ∧ after = { before with pool := after.pool } := by
  obtain ⟨pool, code, slots⟩ := before
  dsimp only [onPool] at done
  split at done
  · rename_i built
    obtain ⟨rfl, rfl⟩ := EStateM.Result.ok.inj done
    exact ⟨built, rfl⟩
  · cases done

/-- A change of the slots changes nothing else. -/
theorem onSlots_ok
    {change : EStateM Error Slots α}
    (done : onSlots change before = .ok value after) :
    change before.slots = .ok value after.slots ∧ after = { before with slots := after.slots } := by
  obtain ⟨pool, code, slots⟩ := before
  dsimp only [onSlots] at done
  split at done
  · rename_i changed
    obtain ⟨rfl, rfl⟩ := EStateM.Result.ok.inj done
    exact ⟨changed, rfl⟩
  · cases done

/-- A change of the code changes nothing else. -/
theorem write_ok
    {f : Code → Code}
    (done : write f before = .ok () after) :
    after = { before with code := f before.code } :=
  (EStateM.Result.ok.inj done).2.symm

theorem position_ok
    {place : Nat}
    (done : position before = .ok place after) :
    place = before.code.position ∧ before = after := by
  obtain ⟨_, _, got, done⟩ := Stateful.bind_eq_ok.mp done
  obtain ⟨rfl, rfl⟩ := Stateful.get_eq_ok.mp got
  obtain ⟨rfl, rfl⟩ := Stateful.pure_eq_ok.mp done
  exact ⟨rfl, rfl⟩

/-- A name that is found is in scope, and nothing is changed. -/
theorem resolve_ok
    {id : Identifier}
    {found : Local}
    (done : resolve id before = .ok found after) :
    before.slots.resolve? id.name = some found ∧ before = after := by
  obtain ⟨_, _, got, done⟩ := Stateful.bind_eq_ok.mp done
  obtain ⟨rfl, rfl⟩ := Stateful.get_eq_ok.mp got
  cases resolved : before.slots.resolve? id.name with
  | none =>
      rw [resolved] at done
      exact absurd done Stateful.throw_ne_ok
  | some known =>
      rw [resolved] at done
      obtain ⟨rfl, rfl⟩ := Stateful.pure_eq_ok.mp done
      exact ⟨rfl, rfl⟩

/-- An instruction without operands is written as it is. -/
theorem instruction_ok
    {opcode : Opcode}
    (sound : before.Sound)
    (bare : opcode.operandSize = 0)
    {change : Int}
    (known : opcode.stackEffect? = some change)
    (done : instruction opcode before = .ok () after) :
    before.Wrote (.plain ⟨opcode, [], bare.symm⟩) after ∧ after.slots = before.slots := by
  obtain rfl := write_ok done
  exact ⟨.plain sound ⟨opcode, [], bare.symm⟩ known, rfl⟩

theorem load_ok
    {type : StaticType}
    {slot : UInt8}
    (sound : before.Sound)
    (done : load type slot before = .ok () after) :
    before.Wrote (.plain (.load type.cell slot)) after ∧ after.slots = before.slots := by
  obtain rfl := write_ok done
  refine ⟨?_, rfl⟩
  unfold Order.load Code.load
  split <;> exact .plain sound _ rfl

theorem store_ok
    {type : StaticType}
    {slot : UInt8}
    (sound : before.Sound)
    (done : store type slot before = .ok () after) :
    before.Wrote (.plain (.store type.cell slot)) after ∧ after.slots = before.slots := by
  obtain rfl := write_ok done
  refine ⟨?_, rfl⟩
  unfold Order.store Code.store
  split <;> exact .plain sound _ rfl

/-- The load of a constant is written with an index of one byte if that is enough. -/
theorem loadConstant_ok
    {index : UInt16}
    (sound : before.Sound)
    (done : loadConstant index before = .ok () after) :
    before.Wrote (.plain (.constant index)) after ∧ after.slots = before.slots := by
  obtain rfl := write_ok done
  refine ⟨?_, rfl⟩
  unfold Order.constant Code.loadConstant
  split <;> exact .plain sound _ rfl

/-- An integer that two bytes can hold is written into the instruction. -/
theorem pushInt_near
    {value : Int32}
    (near : InReach value.toInt)
    (body : Body)
    (index : UInt16) :
    pushInt value body = .ok () { body with
      code := body.code.append (Order.int value index).opcode
        (Order.int value index).operands } := by
  unfold InReach at near
  unfold pushInt Order.int
  dsimp only
  split
  · rfl
  · split
    · rfl
    · rfl

/-- Every other integer is added to the pool, and loaded from there. -/
theorem pushInt_far
    {value : Int32}
    (far : ¬InReach value.toInt)
    (body : Body) :
    pushInt value body =
      match Pool.integer value body.pool with
      | .ok index pool => .ok () { body with
          pool, code := body.code.append (Order.constant index).opcode
            (Order.constant index).operands }
      | .error error pool => .error error { body with pool } := by
  have asked : pushInt value body = (onPool (Pool.integer value) >>= loadConstant) body := by
    unfold InReach at far
    unfold pushInt
    rw [dif_neg (by omega), if_neg (by omega), if_neg far]
  rw [asked]
  show EStateM.bind _ _ body = _
  simp only [EStateM.bind, onPool]
  cases Pool.integer value body.pool with
  | ok index pool => simp only [loadConstant, write, Code.loadConstant_eq]
  | error error pool => rfl

/-- What is written for an integer pushes it, in every later pool. -/
theorem pushInt_ok
    {value : Int32}
    (sound : before.Sound)
    (done : pushInt value before = .ok () after) :
    ∃ order : Order, before.Wrote (.plain order) after ∧ after.slots = before.slots ∧
      ∀ pool, after.pool.Extends pool → order.Pushes pool (.int value) := by
  by_cases near : InReach value.toInt
  · rw [pushInt_near near before 0] at done
    obtain ⟨-, rfl⟩ := EStateM.Result.ok.inj done
    have means := Order.action?_int near 0
    exact ⟨.int value 0, .plain sound _ (Order.stackEffect?_eq_one (Order.change_eq means)), rfl,
      fun pool _ => .operand means⟩
  · rw [pushInt_far near] at done
    cases built : Pool.integer value before.pool with
    | error error pool =>
        rw [built] at done
        cases done
    | ok index pool =>
        rw [built] at done
        obtain ⟨-, rfl⟩ := EStateM.Result.ok.inj done
        obtain ⟨grown, stands⟩ := Pool.integer_ok sound.pool built
        refine ⟨.constant index, ⟨grown, ?_, trivial⟩, rfl, fun pool extended => ?_⟩
        · have effect := Order.stackEffect?_eq_one (Order.change_eq (Order.action?_constant index))
          exact Code.append_eq_extend sound.settled _ effect
        · exact .constant (Order.action?_constant index) (extended.ofConstant? stands)

/-- A branch that is left open is written with a placeholder. -/
theorem jump_ok
    (test : Test)
    {branch : Jump}
    (done : jump test.opcode before = .ok branch after) :
    branch = ⟨before.code.position⟩ ∧
      after = { before with
        code := before.code.grow (Code.hole test) test.change test.change } := by
  obtain ⟨place, middle, found, done⟩ := Stateful.bind_eq_ok.mp done
  obtain ⟨rfl, rfl⟩ := position_ok found
  obtain ⟨_, written, wrote, done⟩ := Stateful.bind_eq_ok.mp done
  obtain ⟨rfl, rfl⟩ := Stateful.pure_eq_ok.mp done
  rw [← Code.jump_eq_grow]
  exact ⟨rfl, write_ok wrote⟩

/-- An offset that is not refused has 16 bits. -/
theorem offset_ok
    {source target : Nat}
    {bytes : List UInt8}
    (done : offset source target before = .ok bytes after) :
    bytes = Bytes.signed 2 ((target : Int) - source) ∧
      -32768 ≤ (target : Int) - source ∧ (target : Int) - source ≤ 32767 ∧
      before = after := by
  simp only [offset, Code.offsetBytes] at done
  by_cases within : -32768 ≤ (target : Int) - source ∧ (target : Int) - source ≤ 32767
  · rw [if_pos within] at done
    obtain ⟨rfl, rfl⟩ := Stateful.pure_eq_ok.mp done
    exact ⟨rfl, within.1, within.2, rfl⟩
  · rw [if_neg within] at done
    exact absurd done Stateful.throw_ne_ok

/-- A branch that is filled in leads to the end of the code, within reach. -/
theorem patch_ok
    {branch : Jump}
    (done : patch branch before = .ok () after) :
    -32768 ≤ (before.code.position : Int) - branch.address ∧
      (before.code.position : Int) - branch.address ≤ 32767 ∧
      after = { before with
        code.bytes := Code.redirect before.code.bytes branch before.code.position } := by
  obtain ⟨place, middle, found, done⟩ := Stateful.bind_eq_ok.mp done
  obtain ⟨rfl, rfl⟩ := position_ok found
  obtain ⟨bytes, kept, made, done⟩ := Stateful.bind_eq_ok.mp done
  obtain ⟨rfl, least, greatest, rfl⟩ := offset_ok made
  exact ⟨least, greatest, write_ok done⟩

/-- A branch back leads to its target, within reach. -/
theorem jumpBack_ok
    (test : Test)
    {target : Nat}
    (done : jumpBack test.opcode target before = .ok () after) :
    -32768 ≤ (target : Int) - before.code.position ∧
      (target : Int) - before.code.position ≤ 32767 ∧
      after = { before with
        code := before.code.grow
          (Order.branch test ((target : Int) - before.code.position)).bytes
          test.change test.change } := by
  obtain ⟨place, middle, found, done⟩ := Stateful.bind_eq_ok.mp done
  obtain ⟨rfl, rfl⟩ := position_ok found
  obtain ⟨bytes, kept, made, done⟩ := Stateful.bind_eq_ok.mp done
  obtain ⟨rfl, least, greatest, rfl⟩ := offset_ok made
  refine ⟨least, greatest, ?_⟩
  rw [write_ok done, Code.append_eq_grow _ _ (Test.stackEffect?_opcode test)]
  rfl

end Emit
end Compile
end Pictogram
