import Pictogram.Compile.Error
import Pictogram.Syntax

/-!
# Slots of local variables

Slots are handed out in increasing order and never twice.  Slot 0 is taken by
the argument of the method.
-/

namespace Pictogram
namespace Compile

/-- A variable with its slot. -/
structure Local where
  /-- The name of the variable. -/
  name : String
  /-- Where it is held. -/
  slot : UInt8
  /-- What it holds. -/
  type : StaticType
  deriving DecidableEq, Repr

/-- The variables with a slot. -/
structure Slots where
  /-- The variables, the latest one first. -/
  locals : List Local
  /-- The slot to be handed out next. -/
  next : Nat
  deriving DecidableEq, Repr

namespace Slots

/-- The slots of a method with one argument. -/
def empty : Slots := ⟨[], 1⟩

/-- The number of slots that a method may have. -/
def limit : Nat := 255

/-- The variable of a name. -/
def resolve? (slots : Slots) (name : String) : Option Local :=
  slots.locals.find? fun found => found.name = name

/-- A slot that no name stands for. -/
def hidden : EStateM Error Slots UInt8 := fun slots =>
  if slots.next < limit then .ok (UInt8.ofNat slots.next) { slots with next := slots.next + 1 }
  else .error (.tooManyLocals limit) slots

/-- A slot for a name that has none. -/
def declare (id : Identifier) (type : StaticType) : EStateM Error Slots UInt8 := do
  if ((← get).resolve? id.name).isSome then throw (.redeclared id.name id.position)
  let slot ← hidden
  modify fun slots => { slots with locals := ⟨id.name, slot, type⟩ :: slots.locals }
  return slot

/-- The slots after a name has been given up.  Its slot stays taken. -/
def remove (slots : Slots) (name : String) : Slots :=
  { slots with locals := slots.locals.filter fun found => found.name ≠ name }

/-- The number of slots of the method, as a class states it. -/
def maxLocals (slots : Slots) : UInt16 := UInt16.ofNat slots.next

end Slots
end Compile
end Pictogram
