import Pictogram.Class.Pool
import Pictogram.Compile.Code
import Pictogram.Compile.Slots

/-!
# A method under construction

The body of a method grows together with the constants that it refers to and
the slots of its variables.
-/

namespace Pictogram
namespace Compile

open Pictogram.Class (Pool)
open Machine (Opcode Cell)

/-- A method under construction. -/
structure Body where
  /-- The constants. -/
  pool : Pool
  /-- The code. -/
  code : Code
  /-- The variables. -/
  slots : Slots

/-- A method without code, on top of the constants of its class. -/
def Body.empty (pool : Pool) : Body := ⟨pool, .empty, .empty⟩

/-- A part of the construction.  What has been written stays when a later part
is refused. -/
abbrev Emit := EStateM Error Body

namespace Emit

/-- Additions to the constants. -/
def onPool {α : Type} (build : Pool.Build α) : Emit α := fun ⟨pool, code, slots⟩ =>
  match build pool with
  | .ok value pool => .ok value ⟨pool, code, slots⟩
  | .error error pool => .error error ⟨pool, code, slots⟩

/-- Changes of the slots. -/
def onSlots {α : Type} (change : EStateM Error Slots α) : Emit α := fun ⟨pool, code, slots⟩ =>
  match change slots with
  | .ok value slots => .ok value ⟨pool, code, slots⟩
  | .error error slots => .error error ⟨pool, code, slots⟩

/-- A change of the code. -/
def write (f : Code → Code) : Emit Unit := fun ⟨pool, code, slots⟩ =>
  .ok () ⟨pool, f code, slots⟩

/-- The address of the next instruction. -/
def position : Emit Nat := return (← get).code.position

/-- An instruction without operands. -/
def instruction (opcode : Opcode) : Emit Unit := write (·.emit opcode)

/-- A branch to be filled in. -/
def jump (opcode : Opcode) : Emit Jump := do
  let address ← position
  write (·.jump opcode)
  return ⟨address⟩

/-- The bytes of the offset of a branch, unless it is too far. -/
def offset (source target : Nat) : Emit (List UInt8) :=
  match Code.offsetBytes source target with
  | .ok bytes => pure bytes
  | .error error => throw error

/-- Makes a branch lead here. -/
def patch (branch : Jump) : Emit Unit := do
  let bytes ← offset branch.address (← position)
  write (·.fill branch bytes)

/-- A branch to an address. -/
def jumpBack (opcode : Opcode) (target : Nat) : Emit Unit := do
  let bytes ← offset (← position) target
  write (·.append opcode bytes)

/-- A push of a constant of the pool. -/
def loadConstant (index : UInt16) : Emit Unit := write (·.loadConstant index)

/-- A push of an integer, by the shortest instruction there is. -/
def pushInt (value : Int32) : Emit Unit := do
  let number := value.toInt
  if small : -1 ≤ number ∧ number ≤ 5 then
    instruction (.iconst ⟨(number + 1).toNat, by omega⟩)
  else if -128 ≤ number ∧ number ≤ 127 then
    write (·.append .bipush (Bytes.signed 1 number))
  else if -32768 ≤ number ∧ number ≤ 32767 then
    write (·.append .sipush (Bytes.signed 2 number))
  else
    let index ← onPool (Pool.integer value)
    loadConstant index

/-- A push of a local. -/
def load (type : StaticType) (slot : UInt8) : Emit Unit := write (·.load type.cell slot)

/-- A pop into a local. -/
def store (type : StaticType) (slot : UInt8) : Emit Unit := write (·.store type.cell slot)

/-- The variable of a name. -/
def resolve (id : Identifier) : Emit Local := do
  match (← get).slots.resolve? id.name with
  | some found => return found
  | none => throw (.undeclared id.name id.position)

end Emit
end Compile
end Pictogram
