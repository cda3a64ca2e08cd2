import Pictogram.Compile.Error
import Pictogram.Machine.Bytes

/-!
# Code under construction

Instructions are appended to the code of a method.  A branch to an address not
known yet is written with an offset to be filled in.  The depth of the operand
stack is followed along the way, as if no branch were taken.
-/

namespace Pictogram
namespace Compile

open Machine (Opcode Cell)

/-- The code of a method so far. -/
structure Code where
  /-- The bytes written. -/
  bytes : Array UInt8
  /-- The depth of the stack after them. -/
  depth : Int
  /-- The greatest depth before that. -/
  maxDepth : Int
  deriving DecidableEq, Repr

/-- A branch whose offset is to be filled in. -/
structure Jump where
  /-- The address of the branch. -/
  address : Nat
  deriving DecidableEq, Repr

namespace Code

/-- Nothing written. -/
def empty : Code := ⟨#[], 0, 0⟩

/-- The address of the next instruction. -/
def position (code : Code) : Nat := code.bytes.size

/-- The greatest depth of the stack, as a class states it. -/
def maxStack (code : Code) : UInt16 :=
  UInt16.ofNat (min code.maxDepth.toNat 65535)

/-- The code after a change of the depth of the stack. -/
def adjust (code : Code) (change : Int) : Code :=
  let depth := code.depth + change
  { code with depth, maxDepth := max code.maxDepth depth }

/-- The code with an instruction. -/
def append (code : Code) (opcode : Opcode) (operands : List UInt8) : Code :=
  let changed := match opcode.stackEffect? with
    | some change => code.adjust change
    | none => code
  { changed with bytes := operands.foldl Array.push (changed.bytes.push opcode.byte) }

/-- The code with an instruction without operands. -/
def emit (code : Code) (opcode : Opcode) : Code := code.append opcode []

/-- The code with an instruction with an operand of one byte. -/
def emitByte (code : Code) (opcode : Opcode) (operand : UInt8) : Code :=
  code.append opcode [operand]

/-- The code with an instruction with an operand of two bytes. -/
def emitWord (code : Code) (opcode : Opcode) (operand : UInt16) : Code :=
  code.append opcode (Bytes.word operand)

/-- The code with a call, which changes the depth by `change`. -/
def invoke (code : Code) (opcode : Opcode) (method : UInt16) (change : Int) : Code :=
  (code.emitWord opcode method).adjust change

/-- The code with a branch whose offset is to be filled in. -/
def jump (code : Code) (opcode : Opcode) : Code :=
  code.append opcode [0xFF, 0xFF]

/-- The bytes of the offset of a branch. -/
def offsetBytes (source target : Nat) : Except Error (List UInt8) :=
  let offset : Int := target - source
  if -32768 ≤ offset ∧ offset ≤ 32767 then .ok (Bytes.signed 2 offset)
  else .error (.branchOutOfRange offset)

/-- The bytes with others written over them from an address on. -/
def overwrite (bytes : Array UInt8) (address : Nat) : List UInt8 → Array UInt8
  | [] => bytes
  | byte :: rest => overwrite (bytes.setIfInBounds address byte) (address + 1) rest

/-- The code with the offset of a branch filled in. -/
def fill (code : Code) (branch : Jump) (offset : List UInt8) : Code :=
  { code with bytes := overwrite code.bytes (branch.address + 1) offset }

/-- The code with a push of a constant of the pool. -/
def loadConstant (code : Code) (index : UInt16) : Code :=
  if index.toNat < 256 then code.emitByte .ldc index.toUInt8 else code.emitWord .ldcWide index

/-- The code with a push of a local. -/
def load (code : Code) (cell : Cell) (slot : UInt8) : Code :=
  if low : slot.toNat < 4 then code.emit (.loadAt cell ⟨slot.toNat, low⟩)
  else code.emitByte (.load cell) slot

/-- The code with a pop into a local. -/
def store (code : Code) (cell : Cell) (slot : UInt8) : Code :=
  if low : slot.toNat < 4 then code.emit (.storeAt cell ⟨slot.toNat, low⟩)
  else code.emitByte (.store cell) slot

/-- The code with a signed byte added to a local. -/
def increment (code : Code) (slot : UInt8) (change : Int8) : Code :=
  code.append .increment [slot, change.toUInt8]

/-- The largest number of bytes that a method may have. -/
def sizeLimit : Nat := 65535

/-- The bytes of a whole method. -/
def finish (code : Code) : Except Error (List UInt8) :=
  if code.bytes.size ≤ sizeLimit then .ok code.bytes.toList
  else .error (.codeTooLarge code.bytes.size)

end Code
end Compile
end Pictogram
