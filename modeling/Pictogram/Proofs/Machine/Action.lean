import Pictogram.Machine.Instruction
import Mathlib.Data.List.Basic

/-!
# What instructions do

An action is the meaning of an instruction, whichever of its encodings has been
chosen.  Actions are read from bytes by the numbers of the machine's manual,
independently of the table of opcodes; `read?_order` says that the two agree.
-/

namespace Pictogram
namespace Machine

/-- When a branch is taken. -/
inductive Test where
  | always
  | zero
  | nonzero
  | compare (relation : Relation)
  deriving DecidableEq, Repr

/-- What an instruction does. -/
inductive Action where
  | push (value : Int32)
  /-- Push a constant of the pool. -/
  | constant (index : UInt16)
  | load (cell : Cell) (slot : UInt8)
  | store (cell : Cell) (slot : UInt8)
  | pop
  | dup
  | arithmetic (operation : Arithmetic)
  | negate
  | increment (slot : UInt8) (change : Int32)
  /-- Go on at an offset from the instruction itself, if the test holds. -/
  | branch (test : Test) (offset : Int)
  | leave
  /-- Push the value of a field. -/
  | field (index : UInt16)
  /-- Call a method. -/
  | call (index : UInt16)
  deriving DecidableEq, Repr

namespace Action

/-- The action of an instruction of one byte. -/
def ofByte? (byte : UInt8) : Option Action :=
  if 0x02 ≤ byte ∧ byte ≤ 0x08 then some (.push (Int32.ofInt (byte.toNat - 3)))
  else if 0x1A ≤ byte ∧ byte ≤ 0x1D then some (.load .int (byte - 0x1A))
  else if 0x2A ≤ byte ∧ byte ≤ 0x2D then some (.load .reference (byte - 0x2A))
  else if 0x3B ≤ byte ∧ byte ≤ 0x3E then some (.store .int (byte - 0x3B))
  else if 0x4B ≤ byte ∧ byte ≤ 0x4E then some (.store .reference (byte - 0x4B))
  else match byte with
    | 0x57 => some .pop
    | 0x59 => some .dup
    | 0x60 => some (.arithmetic .add)
    | 0x64 => some (.arithmetic .subtract)
    | 0x68 => some (.arithmetic .multiply)
    | 0x6C => some (.arithmetic .divide)
    | 0x70 => some (.arithmetic .remainder)
    | 0x74 => some .negate
    | 0x7E => some (.arithmetic .and)
    | 0x80 => some (.arithmetic .or)
    | 0xB1 => some .leave
    | _ => none

/-- The action of an instruction with an operand of one byte. -/
def ofTwo? (byte operand : UInt8) : Option Action :=
  match byte with
  | 0x10 => some (.push (Int32.ofInt (Bytes.toInt [operand])))
  | 0x12 => some (.constant operand.toUInt16)
  | 0x15 => some (.load .int operand)
  | 0x19 => some (.load .reference operand)
  | 0x36 => some (.store .int operand)
  | 0x3A => some (.store .reference operand)
  | _ => none

/-- The action of an instruction with two operand bytes. -/
def ofThree? (byte first second : UInt8) : Option Action :=
  let number := Bytes.toInt [first, second]
  let index := UInt16.ofNat (Bytes.toNat [first, second])
  match byte with
  | 0x11 => some (.push (Int32.ofInt number))
  | 0x13 => some (.constant index)
  | 0x84 => some (.increment first (Int32.ofInt (Bytes.toInt [second])))
  | 0x99 => some (.branch .zero number)
  | 0x9A => some (.branch .nonzero number)
  | 0x9F => some (.branch (.compare .equal) number)
  | 0xA0 => some (.branch (.compare .notEqual) number)
  | 0xA1 => some (.branch (.compare .less) number)
  | 0xA2 => some (.branch (.compare .greaterOrEqual) number)
  | 0xA3 => some (.branch (.compare .greater) number)
  | 0xA4 => some (.branch (.compare .lessOrEqual) number)
  | 0xA7 => some (.branch .always number)
  | 0xB2 => some (.field index)
  | 0xB6 => some (.call index)
  | _ => none

/-- The action that bytes begin with, and the number of bytes it takes. -/
def read? : List UInt8 → Option (Action × Nat)
  | [] => none
  | byte :: operands =>
    match ofByte? byte, operands with
    | some action, _ => some (action, 1)
    | none, [] => none
    | none, first :: more =>
      match ofTwo? byte first, more with
      | some action, _ => some (action, 2)
      | none, [] => none
      | none, second :: _ => (ofThree? byte first second).map (·, 3)

end Action

/-- What an opcode without operands does. -/
def Opcode.plainAction? : Opcode → Option Action
  | .iconst successor => some (.push (Int32.ofInt (successor.val - 1)))
  | .loadAt cell slot => some (.load cell (UInt8.ofNat slot))
  | .storeAt cell slot => some (.store cell (UInt8.ofNat slot))
  | .pop => some .pop
  | .dup => some .dup
  | .arithmetic operation => some (.arithmetic operation)
  | .negate => some .negate
  | .leave => some .leave
  | _ => none

/-- What an opcode with one operand does. -/
def Opcode.byteAction? (operand : UInt8) : Opcode → Option Action
  | .bipush => some (.push (Int32.ofInt (Bytes.toInt [operand])))
  | .ldc => some (.constant operand.toUInt16)
  | .load cell => some (.load cell operand)
  | .store cell => some (.store cell operand)
  | _ => none

/-- What an opcode with two operands does. -/
def Opcode.pairAction? (first second : UInt8) : Opcode → Option Action
  | .sipush => some (.push (Int32.ofInt (Bytes.toInt [first, second])))
  | .ldcWide => some (.constant (UInt16.ofNat (Bytes.toNat [first, second])))
  | .increment => some (.increment first (Int32.ofInt (Bytes.toInt [second])))
  | .ifZero => some (.branch .zero (Bytes.toInt [first, second]))
  | .ifNonzero => some (.branch .nonzero (Bytes.toInt [first, second]))
  | .ifCompare relation => some (.branch (.compare relation) (Bytes.toInt [first, second]))
  | .goto => some (.branch .always (Bytes.toInt [first, second]))
  | .getStatic => some (.field (UInt16.ofNat (Bytes.toNat [first, second])))
  | .invokeVirtual => some (.call (UInt16.ofNat (Bytes.toNat [first, second])))
  | _ => none

/-- What an opcode with its operands does, if there are as many operands as it
takes. -/
def Opcode.action? (opcode : Opcode) : List UInt8 → Option Action
  | [] => opcode.plainAction?
  | [operand] => opcode.byteAction? operand
  | [first, second] => opcode.pairAction? first second
  | _ => none

/-- The manual's numbers of one-byte instructions are those of the opcodes. -/
theorem Opcode.ofByte?_eq_action? (opcode : Opcode) :
    Action.ofByte? opcode.byte = opcode.action? [] := by
  have each : ∀ opcode ∈ all, Action.ofByte? opcode.byte = opcode.action? [] := by decide
  exact each opcode (mem_all opcode)

/-- A branch takes two operand bytes. -/
theorem Opcode.operandSize_of_isBranch
    {opcode : Opcode}
    (isBranch : opcode.isBranch) :
    opcode.operandSize = 2 := by
  cases opcode with
  | ifZero | ifNonzero | ifCompare _ | goto => rfl
  | _ => cases isBranch

/-- An instruction that stands nowhere yet, with all its operands. -/
structure Order where
  /-- The opcode. -/
  opcode : Opcode
  /-- The operand bytes. -/
  operands : List UInt8
  /-- There are as many operand bytes as the opcode takes. -/
  complete : operands.length = opcode.operandSize

namespace Order

/-- The bytes of the instruction. -/
def bytes (order : Order) : List UInt8 := order.opcode.byte :: order.operands

/-- The number of bytes. -/
def size (order : Order) : Nat := order.bytes.length

/-- What the instruction does. -/
def action? (order : Order) : Option Action := order.opcode.action? order.operands

/-- An instruction is one byte longer than its operands. -/
theorem size_eq (order : Order) : order.size = 1 + order.opcode.operandSize := by
  simp only [size, bytes, List.length_cons, order.complete]
  omega

theorem size_pos (order : Order) : 0 < order.size := by
  rw [size_eq]
  omega

/-- No instruction is longer than three bytes. -/
theorem size_le (order : Order) : order.size ≤ 3 := by
  rw [size_eq]
  unfold Opcode.operandSize
  split <;> omega

/-- The bytes of an instruction are read as what its opcode does. -/
theorem read?_bytes
    (order : Order)
    {action : Action}
    (means : order.action? = some action)
    (rest : List UInt8) :
    Action.read? (order.bytes ++ rest) = some (action, order.size) := by
  obtain ⟨opcode, operands, complete⟩ := order
  simp only [action?] at means
  have short := Opcode.ofByte?_eq_action? opcode
  -- The table of opcodes is met with the manual's numbers, one opcode at a time.
  cases opcode with
  | iconst _ | loadAt _ _ | storeAt _ _ | arithmetic _ | pop | dup | negate | leave =>
      obtain rfl := List.length_eq_zero_iff.mp complete
      simp [Action.read?, bytes, size, short, means]
  | bipush | ldc =>
      obtain ⟨operand, rfl⟩ := List.length_eq_one_iff.mp complete
      cases means
      rfl
  | load cell | store cell =>
      obtain ⟨operand, rfl⟩ := List.length_eq_one_iff.mp complete
      cases cell <;> cases means <;> rfl
  | ifCompare relation =>
      obtain ⟨first, second, rfl⟩ := List.length_eq_two.mp complete
      cases relation <;> cases means <;> rfl
  | sipush | ldcWide | increment | ifZero | ifNonzero | goto | getStatic | invokeVirtual =>
      obtain ⟨first, second, rfl⟩ := List.length_eq_two.mp complete
      cases means
      rfl
  | invokeSpecial =>
      obtain ⟨first, second, rfl⟩ := List.length_eq_two.mp complete
      cases means

/-- The instruction at an address. -/
def standing (order : Order) (address : Nat) : Instruction :=
  ⟨address, order.opcode, order.operands⟩

/-- The bytes of an instruction are read back as that instruction. -/
theorem instruction_read?
    (order : Order)
    (address : Nat)
    (rest : List UInt8) :
    Instruction.read? address (order.bytes ++ rest) = some (order.standing address, rest) := by
  simp [Instruction.read?, bytes, standing, Opcode.ofByte?_byte, ← order.complete]

/-- The instructions of a list, one after another from an address on. -/
def place (address : Nat) : List Order → List Instruction
  | [] => []
  | first :: rest => first.standing address :: place (address + first.size) rest

/-- The bytes of a list of instructions. -/
def listBytes (orders : List Order) : List UInt8 := orders.flatMap bytes

@[simp] theorem listBytes_nil : listBytes [] = [] := rfl

@[simp] theorem listBytes_cons (first : Order) (rest : List Order) :
    listBytes (first :: rest) = first.bytes ++ listBytes rest := rfl

@[simp] theorem listBytes_append (first second : List Order) :
    listBytes (first ++ second) = listBytes first ++ listBytes second :=
  List.flatMap_append

/-- Instructions in a row are placed one list behind the other. -/
theorem place_append (address : Nat) (first second : List Order) :
    place address (first ++ second) =
      place address first ++ place (address + (listBytes first).length) second := by
  induction first generalizing address with
  | nil => rfl
  | cons order rest inductionHypothesis =>
      simp [place, inductionHypothesis, size, Nat.add_assoc]

/-- Reading stops where no instruction begins. -/
theorem decodeFrom_of_none
    {address : Nat}
    {bytes : List UInt8}
    (stops : Instruction.read? address bytes = none)
    (done : Array Instruction) :
    decodeFrom address bytes done = done := by
  rw [decodeFrom]
  split
  · rfl
  · rename_i found
    cases stops.symm.trans found

/-- Reading goes on behind an instruction that has been read. -/
theorem decodeFrom_bytes
    (order : Order)
    (address : Nat)
    (rest : List UInt8)
    (done : Array Instruction) :
    decodeFrom address (order.bytes ++ rest) done =
      decodeFrom (address + order.size) rest (done.push (order.standing address)) := by
  rw [decodeFrom]
  split
  · rename_i found
    cases found.symm.trans (order.instruction_read? address rest)
  · rename_i found
    cases found.symm.trans (order.instruction_read? address rest)
    have sameSize : (order.standing address).size = order.size := by
      simp only [Instruction.size, standing, size, Order.bytes, List.length_cons]
      omega
    rw [sameSize]

/-- Instructions are read up to where no instruction can be read. -/
theorem decodeFrom_listBytes
    (orders : List Order)
    {rest : List UInt8}
    (stops : ∀ address, Instruction.read? address rest = none)
    (address : Nat)
    (done : Array Instruction) :
    decodeFrom address (listBytes orders ++ rest) done =
      done ++ (place address orders).toArray := by
  induction orders generalizing address done with
  | nil => simp [place, decodeFrom_of_none (stops address)]
  | cons order orders inductionHypothesis =>
      rw [listBytes_cons, List.append_assoc, decodeFrom_bytes, inductionHypothesis]
      simp [place]

/-- Instructions are read back up to where none begins. -/
theorem decode_listBytes_append
    (orders : List Order)
    {rest : List UInt8}
    (stops : ∀ address, Instruction.read? address rest = none) :
    decode (listBytes orders ++ rest) = place 0 orders := by
  simp [decode, decodeFrom_listBytes orders stops]

/-- Reading back the bytes of a list of instructions gives these instructions. -/
theorem decode_listBytes (orders : List Order) :
    decode (listBytes orders) = place 0 orders := by
  have stops (address : Nat) : Instruction.read? address [] = none := rfl
  have whole := decode_listBytes_append orders stops
  rwa [List.append_nil] at whole

end Order

end Machine
end Pictogram
