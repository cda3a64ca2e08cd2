/-!
# Instructions of the machine

The part of the instruction set that a generated class uses.  An opcode has a
byte, a mnemonic, a number of operand bytes and, calls apart, a fixed effect
on the depth of the operand stack.
-/

namespace Pictogram
namespace Machine

/-- What a cell of the stack or a local variable holds. -/
inductive Cell where
  | int
  | reference
  deriving DecidableEq, Repr

/-- The letter that mnemonics give a cell. -/
def Cell.letter : Cell → String
  | .int => "i"
  | .reference => "a"

/-- An operation on the two upper integers of the stack. -/
inductive Arithmetic where
  | add
  | subtract
  | multiply
  | divide
  | remainder
  | and
  | or
  deriving DecidableEq, Repr

/-- A relation between the two upper integers of the stack. -/
inductive Relation where
  | equal
  | notEqual
  | less
  | greaterOrEqual
  | greater
  | lessOrEqual
  deriving DecidableEq, Repr

/-- The code of an instruction. -/
inductive Opcode where
  /-- Push the given number less one. -/
  | iconst (successor : Fin 7)
  /-- Push the operand, a signed byte. -/
  | bipush
  /-- Push the operand, a signed word. -/
  | sipush
  /-- Push a constant of the pool, by an index of one byte. -/
  | ldc
  /-- Push a constant of the pool, by an index of two bytes. -/
  | ldcWide
  /-- Push the local whose slot is the operand. -/
  | load (cell : Cell)
  /-- Push the local of a low slot. -/
  | loadAt (cell : Cell) (slot : Fin 4)
  /-- Pop into the local whose slot is the operand. -/
  | store (cell : Cell)
  /-- Pop into the local of a low slot. -/
  | storeAt (cell : Cell) (slot : Fin 4)
  | pop
  | dup
  | arithmetic (operation : Arithmetic)
  | negate
  /-- Add a signed byte to a local. -/
  | increment
  /-- Branch if the upper integer is zero. -/
  | ifZero
  /-- Branch if the upper integer is not zero. -/
  | ifNonzero
  /-- Branch if the relation holds. -/
  | ifCompare (relation : Relation)
  | goto
  /-- Return without a value. -/
  | leave
  | getStatic
  | invokeVirtual
  | invokeSpecial
  deriving DecidableEq, Repr

namespace Opcode

/-- Loads the object that a method is called on. -/
def loadReceiver : Opcode := .loadAt .reference 0

/-- All opcodes, in the order of their bytes. -/
def all : List Opcode :=
  [.iconst 0, .iconst 1, .iconst 2, .iconst 3, .iconst 4, .iconst 5, .iconst 6,
    .bipush, .sipush, .ldc, .ldcWide, .load .int, .load .reference,
    .loadAt .int 0, .loadAt .int 1, .loadAt .int 2, .loadAt .int 3,
    .loadAt .reference 0, .loadAt .reference 1, .loadAt .reference 2, .loadAt .reference 3,
    .store .int, .store .reference,
    .storeAt .int 0, .storeAt .int 1, .storeAt .int 2, .storeAt .int 3,
    .storeAt .reference 0, .storeAt .reference 1, .storeAt .reference 2, .storeAt .reference 3,
    .pop, .dup, .arithmetic .add, .arithmetic .subtract, .arithmetic .multiply,
    .arithmetic .divide, .arithmetic .remainder, .negate, .arithmetic .and, .arithmetic .or,
    .increment, .ifZero, .ifNonzero, .ifCompare .equal, .ifCompare .notEqual, .ifCompare .less,
    .ifCompare .greaterOrEqual, .ifCompare .greater, .ifCompare .lessOrEqual, .goto, .leave,
    .getStatic, .invokeVirtual, .invokeSpecial]

/-- The byte of an opcode. -/
def byte : Opcode → UInt8
  | .iconst successor => 0x02 + UInt8.ofNat successor
  | .bipush => 0x10
  | .sipush => 0x11
  | .ldc => 0x12
  | .ldcWide => 0x13
  | .load .int => 0x15
  | .load .reference => 0x19
  | .loadAt .int slot => 0x1A + UInt8.ofNat slot
  | .loadAt .reference slot => 0x2A + UInt8.ofNat slot
  | .store .int => 0x36
  | .store .reference => 0x3A
  | .storeAt .int slot => 0x3B + UInt8.ofNat slot
  | .storeAt .reference slot => 0x4B + UInt8.ofNat slot
  | .pop => 0x57
  | .dup => 0x59
  | .arithmetic .add => 0x60
  | .arithmetic .subtract => 0x64
  | .arithmetic .multiply => 0x68
  | .arithmetic .divide => 0x6C
  | .arithmetic .remainder => 0x70
  | .negate => 0x74
  | .arithmetic .and => 0x7E
  | .arithmetic .or => 0x80
  | .increment => 0x84
  | .ifZero => 0x99
  | .ifNonzero => 0x9A
  | .ifCompare .equal => 0x9F
  | .ifCompare .notEqual => 0xA0
  | .ifCompare .less => 0xA1
  | .ifCompare .greaterOrEqual => 0xA2
  | .ifCompare .greater => 0xA3
  | .ifCompare .lessOrEqual => 0xA4
  | .goto => 0xA7
  | .leave => 0xB1
  | .getStatic => 0xB2
  | .invokeVirtual => 0xB6
  | .invokeSpecial => 0xB7

/-- The opcode that a byte stands for. -/
def ofByte? (byte : UInt8) : Option Opcode :=
  all.find? fun opcode => opcode.byte = byte

/-- The number of operand bytes. -/
def operandSize : Opcode → Nat
  | .bipush | .ldc | .load _ | .store _ => 1
  | .sipush | .ldcWide | .increment | .ifZero | .ifNonzero | .ifCompare _ | .goto => 2
  | .getStatic | .invokeVirtual | .invokeSpecial => 2
  | _ => 0

/-- How the depth of the stack changes.  For a call that depends on what is
called. -/
def stackEffect? : Opcode → Option Int
  | .iconst _ | .bipush | .sipush | .ldc | .ldcWide | .load _ | .loadAt .. => some 1
  | .dup | .getStatic => some 1
  | .store _ | .storeAt .. | .pop | .arithmetic _ | .ifZero | .ifNonzero => some (-1)
  | .ifCompare _ => some (-2)
  | .negate | .increment | .goto | .leave => some 0
  | .invokeVirtual | .invokeSpecial => none

/-- Whether the operand is the offset of a branch. -/
def isBranch : Opcode → Bool
  | .ifZero | .ifNonzero | .ifCompare _ | .goto => true
  | _ => false

/-- The name of an opcode in listings. -/
def mnemonic : Opcode → String
  | .iconst 0 => "iconst_m1"
  | .iconst successor => s!"iconst_{successor.val - 1}"
  | .bipush => "bipush"
  | .sipush => "sipush"
  | .ldc => "ldc"
  | .ldcWide => "ldc_w"
  | .load cell => s!"{cell.letter}load"
  | .loadAt cell slot => s!"{cell.letter}load_{slot.val}"
  | .store cell => s!"{cell.letter}store"
  | .storeAt cell slot => s!"{cell.letter}store_{slot.val}"
  | .pop => "pop"
  | .dup => "dup"
  | .arithmetic .add => "iadd"
  | .arithmetic .subtract => "isub"
  | .arithmetic .multiply => "imul"
  | .arithmetic .divide => "idiv"
  | .arithmetic .remainder => "irem"
  | .arithmetic .and => "iand"
  | .arithmetic .or => "ior"
  | .negate => "ineg"
  | .increment => "iinc"
  | .ifZero => "ifeq"
  | .ifNonzero => "ifne"
  | .ifCompare .equal => "if_icmpeq"
  | .ifCompare .notEqual => "if_icmpne"
  | .ifCompare .less => "if_icmplt"
  | .ifCompare .greaterOrEqual => "if_icmpge"
  | .ifCompare .greater => "if_icmpgt"
  | .ifCompare .lessOrEqual => "if_icmple"
  | .goto => "goto"
  | .leave => "return"
  | .getStatic => "getstatic"
  | .invokeVirtual => "invokevirtual"
  | .invokeSpecial => "invokespecial"

theorem mem_all (opcode : Opcode) : opcode ∈ all := by
  cases opcode with
  | iconst successor => revert successor; decide
  | load cell => cases cell <;> decide
  | loadAt cell slot => cases cell <;> revert slot <;> decide
  | store cell => cases cell <;> decide
  | storeAt cell slot => cases cell <;> revert slot <;> decide
  | arithmetic operation => cases operation <;> decide
  | ifCompare relation => cases relation <;> decide
  | _ => decide

/-- The byte of an opcode stands for that opcode. -/
theorem ofByte?_byte (opcode : Opcode) : ofByte? opcode.byte = some opcode := by
  have each : ∀ opcode ∈ all, ofByte? opcode.byte = some opcode := by decide
  exact each opcode (mem_all opcode)

end Opcode
end Machine
end Pictogram
