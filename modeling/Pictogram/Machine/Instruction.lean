import Pictogram.Machine.Bytes
import Pictogram.Machine.Opcode

/-!
# Instructions read from bytes

Reading a run of bytes as instructions stops at the first byte that is no
opcode, or where the operand bytes run out.
-/

namespace Pictogram
namespace Machine

/-- An instruction at its address. -/
structure Instruction where
  /-- Offset of the opcode. -/
  address : Nat
  /-- The opcode. -/
  opcode : Opcode
  /-- The operand bytes. -/
  operands : List UInt8
  deriving DecidableEq, Repr

namespace Instruction

/-- The instruction that the bytes at an address begin with, and the bytes
after it. -/
def read? (address : Nat) : List UInt8 → Option (Instruction × List UInt8)
  | [] => none
  | byte :: rest =>
    match Opcode.ofByte? byte with
    | none => none
    | some opcode =>
      let operands := rest.take opcode.operandSize
      if operands.length = opcode.operandSize then
        some (⟨address, opcode, operands⟩, rest.drop opcode.operandSize)
      else none

/-- The number of bytes of the instruction. -/
def size (instruction : Instruction) : Nat := 1 + instruction.operands.length

/-- The address that a branch leads to.  There is none below zero. -/
def target? (instruction : Instruction) : Option Nat :=
  if instruction.opcode.isBranch then
    match (instruction.address : Int) + Bytes.toInt instruction.operands with
    | .ofNat target => some target
    | .negSucc _ => none
  else none

/-- The operands of an instruction in a listing, each after a blank. -/
def operandText (instruction : Instruction) : String :=
  match instruction.target?, instruction.operands with
  | some target, _ => s!" {target}"
  | none, [] => ""
  | none, [operand] =>
    if instruction.opcode = .bipush then s!" {Bytes.toInt [operand]}" else s!" {operand.toNat}"
  | none, [first, second] =>
    if instruction.opcode = .increment then s!" {first.toNat}, {Bytes.toInt [second]}"
    else if instruction.opcode = .sipush then s!" {Bytes.toInt [first, second]}"
    else s!" #{Bytes.toNat [first, second]}"
  | none, _ => ""

/-- The line of an instruction in a listing. -/
def line (instruction : Instruction) : String :=
  let address := toString instruction.address
  let padding := String.ofList (List.replicate (4 - address.length) ' ')
  s!"{padding}{address}: {instruction.opcode.mnemonic}{instruction.operandText}"

theorem length_lt_of_read?
    {address : Nat}
    {bytes rest : List UInt8}
    {instruction : Instruction}
    (found : read? address bytes = some (instruction, rest)) :
    rest.length < bytes.length := by
  cases bytes with
  | nil => simp [read?] at found
  | cons byte bytes =>
    simp only [read?] at found
    split at found
    · simp at found
    · split at found
      · simp only [Option.some.injEq, Prod.mk.injEq] at found
        rw [← found.2]
        simp only [List.length_drop, List.length_cons]
        omega
      · simp at found

end Instruction

/-- The instructions from an address on, after those in `done`. -/
def decodeFrom
    (address : Nat)
    (bytes : List UInt8)
    (done : Array Instruction) : Array Instruction :=
  match _found : Instruction.read? address bytes with
  | none => done
  | some (instruction, rest) =>
    decodeFrom (address + instruction.size) rest (done.push instruction)
termination_by bytes.length
decreasing_by exact Instruction.length_lt_of_read? _found

/-- The instructions that a run of bytes holds. -/
def decode (code : List UInt8) : List Instruction :=
  (decodeFrom 0 code #[]).toList

/-- The lines that list the instructions of a run of bytes. -/
def listing (code : List UInt8) : List String :=
  (decode code).map Instruction.line

end Machine
end Pictogram
