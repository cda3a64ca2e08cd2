import Pictogram.Proofs.Code.Operation
import Pictogram.Proofs.Code.Runs

/-!
# Short encodings

An integer, a constant of the pool and a local variable can be had by instructions of
several sizes.  The generator writes one of a smallest size, and takes an integer from the
pool only if no instruction holds it.  What an instruction pushes is said of the machine that
runs it, wherever the instruction stands.
-/

namespace Pictogram

namespace Class
namespace Pool

/-- The constant stands in the pool, or there is room for it. -/
def Accepts (pool : Pool) (constant : Constant) : Prop :=
  (∃ index, pool.get? index = some constant) ∨ pool.size + constant.width ≤ 65534

/-- A pool that additions have made is in order. -/
theorem Built.consistent {pool : Pool} (built : pool.Built) : pool.Consistent := by
  obtain ⟨operations, rfl⟩ := built
  exact consistent_foldl operations

/-- A constant that stands in the pool, or for which there is room, is not refused. -/
theorem Agrees.add_of_accepts
    {pool : Pool}
    {constant : Constant}
    (agrees : pool.Agrees)
    (accepts : pool.Accepts constant) :
    ∃ index grown, add constant pool = .ok index grown := by
  cases added : add constant pool with
  | ok index grown => exact ⟨index, grown, rfl⟩
  | error error refused =>
      obtain ⟨new, full⟩ := (agrees.add_refused_iff constant).mp ⟨error, refused, added⟩
      rcases accepts with ⟨index, stands⟩ | room
      · exact absurd stands (new index)
      · omega

end Pool
end Class

namespace Machine

open Pictogram.Class (Pool)
open Pictogram.Compile (InReach Stands advance_plain)

namespace Order

/-- The bytes of the instruction are read as the action, whatever follows them. -/
def Reads (order : Order) (action : Action) : Prop :=
  ∀ rest, Action.read? (order.bytes ++ rest) = some (action, order.size)

/-- Wherever the instruction stands in a method with the pool, the machine pushes the datum
and goes on behind the instruction. -/
def Delivers (order : Order) (pool : Pool) (datum : Datum) : Prop :=
  ∀ (routine : Routine) (address : Nat) (frame : Frame), routine.pool = pool →
    Stands routine.code address order.bytes →
    routine.advance ⟨address, frame⟩ = .next ⟨address + order.size, frame.push datum⟩

/-- The instruction pushes the integer, whatever constants there are. -/
def Holds (order : Order) (value : Int32) : Prop := ∀ pool, order.Delivers pool (.int value)

/-- No shorter instruction has the property of this one. -/
def IsShortest (property : Order → Prop) (order : Order) : Prop :=
  property order ∧ ∀ other, property other → order.size ≤ other.size

/-! ## What an instruction is read as -/

/-- Only a call of a constructor is not read at all. -/
theorem read?_of_action?_eq_none
    {order : Order}
    (unknown : order.action? = none) :
    Action.read? order.bytes = none := by
  obtain ⟨opcode, operands, complete⟩ := order
  cases opcode with
  | invokeSpecial =>
      obtain ⟨first, second, rfl⟩ := List.length_eq_two.mp complete
      rfl
  | iconst _ | loadAt _ _ | storeAt _ _ | arithmetic _ | pop | dup | negate | leave =>
      obtain rfl := List.length_eq_zero_iff.mp complete
      cases unknown
  | bipush | ldc | load _ | store _ =>
      obtain ⟨operand, rfl⟩ := List.length_eq_one_iff.mp complete
      cases unknown
  | sipush | ldcWide | increment | ifZero | ifNonzero | ifCompare _ | goto | getStatic |
      invokeVirtual =>
      obtain ⟨first, second, rfl⟩ := List.length_eq_two.mp complete
      cases unknown

/-- The bytes of an instruction are read as the one action that it stands for. -/
theorem reads_iff {order : Order} {action : Action} :
    order.Reads action ↔ order.action? = some action := by
  constructor
  · intro reads
    have read := reads []
    rw [List.append_nil] at read
    cases means : order.action? with
    | none =>
        rw [read?_of_action?_eq_none means] at read
        cases read
    | some other =>
        have same := order.read?_bytes means []
        rw [List.append_nil, read] at same
        cases same
        rfl
  · intro means rest
    exact order.read?_bytes means rest

/-- An instruction that pushes a datum delivers it on the machine. -/
theorem Pushes.delivers
    {pool : Pool}
    {order : Order}
    {datum : Datum}
    (pushes : order.Pushes pool datum) :
    order.Delivers pool datum := by
  rintro routine address frame rfl stands
  cases pushes with
  | operand means => exact advance_plain stands means rfl rfl
  | constant means isDatum =>
      exact advance_plain stands means (Action.perform?_constant isDatum frame) rfl

/-- An action that pushes an integer on an empty stack, without constants and without local
variables, has the integer in itself. -/
theorem eq_push_of_perform
    {code : List UInt8}
    {action : Action}
    {size next : Nat}
    {value : Int32}
    (pushed : (Routine.mk code .empty 0 0).perform action size Routine.initial =
      .next ⟨next, Routine.initial.frame.push (.int value)⟩) :
    action = .push value := by
  cases action with
  | push other =>
      injection pushed with state
      injection state with _ frame
      injection frame with stack
      injection stack with datum
      injection datum with same
      rw [same]
  | branch test offset =>
      cases test with
      | always =>
          simp only [Routine.perform, Test.decide?, Routine.goTo] at pushed
          split at pushed <;> cases pushed
      | zero | nonzero | compare _ => cases pushed
  | field index =>
      simp [Routine.perform, Routine.hasLocal, Action.local?, Action.perform?, Class.Pool.field?,
        Class.Pool.empty, Class.Pool.get?_eq] at pushed
  | constant index =>
      simp [Routine.perform, Routine.hasLocal, Action.local?, Action.perform?,
        Datum.ofConstant?, Class.Pool.empty, Class.Pool.get?_eq] at pushed
  | load _ slot | store _ slot | increment slot _ =>
      simp [Routine.perform, Routine.hasLocal, Action.local?] at pushed
  | pop | dup | arithmetic _ | negate | leave | call _ => cases pushed

/-- An instruction pushes an integer whatever constants there are just when its operand holds the
integer. -/
theorem holds_iff {order : Order} {value : Int32} :
    order.Holds value ↔ order.action? = some (.push value) := by
  constructor
  · intro holds
    have stands : Stands order.bytes 0 order.bytes := List.prefix_refl _
    have pushed := holds .empty ⟨order.bytes, .empty, 0, 0⟩ 0 Routine.initial.frame rfl stands
    cases means : order.action? with
    | none =>
        simp only [Routine.advance, List.drop_zero, read?_of_action?_eq_none means] at pushed
        cases pushed
    | some action =>
        have read := stands.read? means
        simp only [Routine.advance, read] at pushed
        rw [eq_push_of_perform pushed]
  · intro means pool
    exact Pushes.delivers (.operand means)

/-! ## How long an instruction has to be -/

/-- An instruction that holds an integer is as long as its operands need to be. -/
theorem size_of_push
    {order : Order}
    {value : Int32}
    (means : order.action? = some (.push value)) :
    (-1 ≤ value.toInt ∧ value.toInt ≤ 5 ∧ order.size = 1) ∨
    (-128 ≤ value.toInt ∧ value.toInt ≤ 127 ∧ order.size = 2) ∨
    (InReach value.toInt ∧ order.size = 3) := by
  obtain ⟨opcode, operands, complete⟩ := order
  -- Three kinds of opcodes push an integer, one for each number of operands.
  rcases operands with _ | ⟨first, _ | ⟨second, _ | ⟨_, _⟩⟩⟩
  · cases opcode <;> cases means
    rename_i successor
    have bound := successor.isLt
    rw [Int32.toInt_ofInt_of_le (by omega) (by omega)]
    exact .inl ⟨by omega, by omega, rfl⟩
  · cases opcode <;> cases means
    obtain ⟨least, greatest⟩ := Bytes.toInt_bounds [first]
    simp only [List.length_singleton] at least greatest
    rw [Int32.toInt_ofInt_of_le (by omega) (by omega)]
    exact .inr (.inl ⟨by omega, by omega, rfl⟩)
  · cases opcode <;> cases means
    obtain ⟨least, greatest⟩ := Bytes.toInt_bounds [first, second]
    simp only [List.length_cons, List.length_nil] at least greatest
    rw [Int32.toInt_ofInt_of_le (by omega) (by omega)]
    exact .inr (.inr ⟨⟨by omega, by omega⟩, rfl⟩)
  · cases means

/-- The integers that an instruction can hold. -/
theorem exists_holds_iff {value : Int32} :
    (∃ order : Order, order.Holds value) ↔ InReach value.toInt := by
  constructor
  · rintro ⟨order, holds⟩
    have sizes := size_of_push (holds_iff.mp holds)
    unfold InReach at *
    omega
  · intro near
    exact ⟨int value 0, holds_iff.mpr (action?_int near 0)⟩

/-- No instruction that holds an integer is shorter than the one that is chosen for it. -/
theorem size_int_le
    {order : Order}
    {value : Int32}
    (means : order.action? = some (.push value))
    (index : UInt16) :
    (int value index).size ≤ order.size := by
  have sizes := size_of_push means
  unfold InReach at sizes
  unfold int
  dsimp only
  split
  · exact order.size_pos
  · split
    · simp only [size_eq, Opcode.operandSize] at sizes ⊢
      omega
    · rw [if_pos (by omega)]
      simp only [size_eq, Opcode.operandSize] at sizes ⊢
      omega

/-- No instruction that loads a constant is shorter than the one that is chosen for it. -/
theorem size_constant_le
    {order : Order}
    {index : UInt16}
    (means : order.action? = some (.constant index)) :
    (constant index).size ≤ order.size := by
  obtain ⟨opcode, operands, complete⟩ := order
  rcases operands with _ | ⟨first, _ | ⟨second, _ | ⟨_, _⟩⟩⟩
  · cases opcode <;> cases means
  · cases opcode <;> cases means
    have small := first.toNat_lt
    rw [constant, if_pos (by simpa using small)]
    rfl
  · exact size_le _
  · cases means

/-- The wide form of a load is chosen for an index above 255 only. -/
theorem opcode_constant (index : UInt16) :
    (constant index).opcode = if index ≤ 255 then .ldc else .ldcWide := by
  have bound : index ≤ 255 ↔ index.toNat < 256 := by
    rw [UInt16.le_iff_toNat_le]
    exact Nat.lt_succ_iff.symm
  simp only [constant, bound]
  split <;> rfl

/-- Without operands only the first four local variables can be reached. -/
theorem size_of_local?
    {order : Order}
    {action : Action}
    {slot : UInt8}
    {cell : Cell}
    (means : order.action? = some action)
    (reaches : action.local? = some (slot, cell)) :
    (if slot.toNat < 4 then 1 else 2) ≤ order.size := by
  split
  · exact order.size_pos
  · rename_i high
    obtain ⟨opcode, operands, complete⟩ := order
    rcases operands with _ | ⟨first, rest⟩
    · refine absurd ?_ high
      cases opcode <;> cases means <;> cases reaches
      all_goals
        rename_i low
        rw [UInt8.toNat_ofNat_of_lt' (by show low.val < 256; omega)]
        exact low.isLt
    · simp [size, bytes]

theorem size_load (cell : Cell) (slot : UInt8) :
    (load cell slot).size = if slot.toNat < 4 then 1 else 2 := by
  unfold load
  split <;> rfl

theorem size_store (cell : Cell) (slot : UInt8) :
    (store cell slot).size = if slot.toNat < 4 then 1 else 2 := by
  unfold store
  split <;> rfl

/-! ## Shortest instructions -/

/-- The instruction for an integer that two bytes can hold is a shortest one. -/
theorem isShortest_int
    {value : Int32}
    (near : InReach value.toInt)
    (index : UInt16) :
    (int value index).IsShortest (·.Holds value) :=
  ⟨holds_iff.mpr (action?_int near index),
    fun _ holds => size_int_le (holds_iff.mp holds) index⟩

theorem isShortest_constant (index : UInt16) :
    (constant index).IsShortest (·.Reads (.constant index)) :=
  ⟨reads_iff.mpr (action?_constant index), fun _ reads => size_constant_le (reads_iff.mp reads)⟩

theorem isShortest_load (cell : Cell) (slot : UInt8) :
    (load cell slot).IsShortest (·.Reads (.load cell slot)) := by
  refine ⟨reads_iff.mpr (action?_load cell slot), fun other reads => ?_⟩
  rw [size_load]
  exact size_of_local? (reads_iff.mp reads) rfl

theorem isShortest_store (cell : Cell) (slot : UInt8) :
    (store cell slot).IsShortest (·.Reads (.store cell slot)) := by
  refine ⟨reads_iff.mpr (action?_store cell slot), fun other reads => ?_⟩
  rw [size_store]
  exact size_of_local? (reads_iff.mp reads) rfl

end Order
end Machine

namespace Compile

open Pictogram.Class (Pool)
open Machine (Order)

/-- The second code is the first with one instruction behind it, which is decoded from its
bytes again. -/
def Code.Gained (before : Code) (order : Order) (after : Code) : Prop :=
  after.bytes = before.bytes ++ order.bytes.toArray ∧
    Machine.decode order.bytes = [order.standing 0]

/-- Code with an instruction appended has gained that instruction. -/
theorem Code.gained_append (code : Code) (order : Order) :
    code.Gained order (code.append order.opcode order.operands) :=
  have decoded := Order.decode_listBytes [order]
  ⟨code.bytes_append order.opcode order.operands, by simpa [Order.place] using decoded⟩

namespace Emit

/-- All that the part of the generator does is to write a shortest instruction with a
property. -/
def WritesShortest (emit : Emit Unit) (property : Order → Prop) : Prop :=
  ∀ body, ∃ (order : Order) (code : Code), emit body = .ok () { body with code } ∧
    body.code.Gained order code ∧ order.IsShortest property

/-- A part of the generator that appends a shortest instruction writes a shortest one. -/
theorem WritesShortest.of_append
    {write : Code → Code}
    {property : Order → Prop}
    {order : Order}
    (shortest : order.IsShortest property)
    (appends : ∀ code, write code = code.append order.opcode order.operands) :
    WritesShortest (Emit.write write) property := by
  intro body
  refine ⟨order, write body.code, rfl, ?_, shortest⟩
  rw [appends]
  exact body.code.gained_append order

/-- An integer is pushed by a single instruction, which can always be written if the pool has
room for the integer.  If there are instructions that hold the integer then it is a shortest
of these, and the pool stays as it is.  Otherwise the integer is put into the pool, and the
instruction refers to its index, by one byte if one is enough.  A constant of the pool and a
local variable, too, are reached by a shortest instruction for the index or the slot. -/
theorem encodings_shortest
    {pool : Pool}
    (built : pool.Built)
    (code : Code)
    (slots : Slots)
    (value : Int32)
    (room : pool.Accepts (.integer value)) :
    (∃ (order : Order) (after : Body), pushInt value ⟨pool, code, slots⟩ = .ok () after ∧
      after.slots = slots ∧ code.Gained order after.code ∧
      order.Delivers after.pool (.int value) ∧
      ((∃ other : Order, other.Holds value) →
        after.pool = pool ∧ order.IsShortest (·.Holds value)) ∧
      ((¬∃ other : Order, other.Holds value) →
        ∃ index, Pool.integer value pool = .ok index after.pool ∧
          order.IsShortest (·.Reads (.constant index)) ∧
          order.opcode = if index ≤ 255 then .ldc else .ldcWide)) ∧
    (∀ index, (loadConstant index).WritesShortest (·.Reads (.constant index))) ∧
    (∀ type slot, (load type slot).WritesShortest (·.Reads (.load type.cell slot))) ∧
    ∀ type slot, (store type slot).WritesShortest (·.Reads (.store type.cell slot)) := by
  refine ⟨?_, fun index => .of_append (Order.isShortest_constant index) (·.loadConstant_eq index),
    fun type slot => .of_append (Order.isShortest_load type.cell slot) (·.load_eq type.cell slot),
    fun type slot => .of_append (Order.isShortest_store type.cell slot) (·.store_eq type.cell slot)⟩
  -- An integer is held by an instruction exactly if two bytes can hold it.
  by_cases near : InReach value.toInt
  · have shortest := Order.isShortest_int near 0
    exact ⟨.int value 0, _, pushInt_near near _ 0, rfl, code.gained_append _, shortest.1 pool,
      fun _ => ⟨rfl, shortest⟩, fun noneHolds => absurd (Order.exists_holds_iff.mpr near) noneHolds⟩
  · have consistent := built.consistent
    obtain ⟨index, grown, added⟩ := consistent.agrees.add_of_accepts room
    obtain ⟨-, isDatum⟩ := Pool.integer_ok consistent.sound added
    have pushes : (Order.constant index).Pushes grown (.int value) :=
      .constant (Order.action?_constant index) isDatum
    have pushed := pushInt_far near ⟨pool, code, slots⟩
    rw [Pool.integer, added] at pushed
    exact ⟨.constant index, _, pushed, rfl, code.gained_append _, pushes.delivers,
      fun holds => absurd (Order.exists_holds_iff.mp holds) near,
      fun _ => ⟨index, added, Order.isShortest_constant index, Order.opcode_constant index⟩⟩

/-- The first integer above those that instructions hold is pushed from the pool. -/
theorem encodings_shortest_first :
    Pool.empty.Built ∧ Pool.empty.Accepts (.integer 32768) ∧
    ∃ (order : Order) (after : Body), pushInt 32768 (.empty .empty) = .ok () after ∧
      after.code.bytes = order.bytes.toArray ∧ order.opcode = .ldc ∧
      order.Reads (.constant 1) ∧ order.Delivers after.pool (.int 32768) := by
  have built : Pool.empty.Built := ⟨[], rfl⟩
  have room : Pool.empty.Accepts (.integer 32768) := .inr (by decide)
  have far : ¬∃ order : Order, order.Holds 32768 := by
    rw [Order.exists_holds_iff]
    decide
  obtain ⟨⟨order, after, pushed, -, ⟨bytes, -⟩, delivers, -, refers⟩, -⟩ :=
    encodings_shortest built .empty .empty 32768 room
  obtain ⟨index, added, ⟨reads, -⟩, opcode⟩ := refers far
  have first : Pool.integer 32768 .empty = .ok 1 (Pool.empty.append (.integer 32768)) := by
    simp [Pool.integer, Pool.add, Pool.empty, Class.Constant.width, Class.Constant.isWide,
      Class.Pool.indexBound]
  obtain ⟨rfl, -⟩ := EStateM.Result.ok.inj (first.symm.trans added)
  exact ⟨built, room, order, after, pushed, by simpa [Code.empty] using bytes, opcode, reads,
    delivers⟩

end Emit
end Compile
end Pictogram
