import Pictogram.Proofs.Machine.Flow

/-!
# Valid classes

A class is valid if every index in it names a constant of the right kind and its
methods can be followed: their code is made of whole instructions, every branch
leads to one of them, no walk leaves the code, and the local variables are those
that the method has room for.
-/

namespace Pictogram

namespace Class

namespace Constant

/-- Whether a constant is a text. -/
def isText : Constant → Bool
  | .text _ => true
  | _ => false

/-- Whether a constant is a class. -/
def isClass : Constant → Bool
  | .classRef _ => true
  | _ => false

/-- Whether a constant is a signature. -/
def isSignature : Constant → Bool
  | .nameAndType .. => true
  | _ => false

/-- The indices in a constant, each with what has to stand there. -/
def references : Constant → List (UInt16 × (Constant → Bool))
  | .text _ | .integer _ | .float _ | .long _ | .double _ => []
  | .classRef name => [(name, isText)]
  | .stringRef content => [(content, isText)]
  | .fieldRef owner signature | .methodRef owner signature
  | .interfaceMethodRef owner signature => [(owner, isClass), (signature, isSignature)]
  | .nameAndType name descriptor => [(name, isText), (descriptor, isText)]

end Constant

namespace Pool

/-- Whether an index names a constant of a kind. -/
def names (pool : Pool) (index : UInt16) (kind : Constant → Bool) : Bool :=
  (pool.get? index).any kind

theorem names_iff {pool : Pool} {index : UInt16} {kind : Constant → Bool} :
    pool.names index kind = true ↔
      ∃ constant, pool.get? index = some constant ∧ kind constant = true := by
  simp [names, Option.any_eq_true]

/-- Every index in a constant names an earlier constant of the right kind. -/
def Linked (pool : Pool) : Prop :=
  ∀ index constant, pool.get? index = some constant →
    ∀ reference ∈ constant.references,
      reference.1 < index ∧ pool.names reference.1 reference.2

end Pool
end Class

namespace Machine

open Pictogram.Class (Pool)

/-- The operands of a branch whose offset is still to be filled in. -/
def unfilled : List UInt8 := [0xFF, 0xFF]

/-- Code that can be followed, in a method with room for some local variables. -/
structure ValidCode (pool : Pool) (maxLocals : UInt16) (code : List UInt8) : Prop where
  /-- The code is made of whole instructions. -/
  whole : (decode code).flatMap Instruction.bytes = code
  /-- Every branch has been filled in and leads to an instruction. -/
  lands : ∀ branch ∈ decode code, branch.opcode.isBranch → branch.operands ≠ unfilled ∧
    ∃ target ∈ decode code, branch.target? = some target.address
  /-- Wherever a walk leads there is an instruction. -/
  inside : ∀ passed place, Walk code 0 passed place →
    ∃ instruction ∈ decode code, instruction.address = place
  /-- The local variables are those of the method. -/
  locals : ∀ instruction ∈ decode code, ∀ slot : UInt8,
    instruction.reads? = some slot ∨ instruction.stores? = some slot →
    slot.toNat < maxLocals.toNat
  /-- Every index names a constant that the instruction can use. -/
  constants : ∀ instruction ∈ decode code, ∀ index, instruction.index? = some index →
    pool.names index instruction.opcode.mayName

end Machine

namespace Class

mutual

/-- The indices in an attribute name texts, and its code is valid. -/
def Attribute.Valid (pool : Pool) : Attribute → Prop
  | .code name _ maxLocals code attributes =>
    pool.names name Constant.isText ∧ Machine.ValidCode pool maxLocals code ∧
      AttributesValid pool attributes
  | .sourceFile name file => pool.names name Constant.isText ∧ pool.names file Constant.isText

/-- All attributes are valid. -/
def AttributesValid (pool : Pool) : List Attribute → Prop
  | [] => True
  | first :: rest => first.Valid pool ∧ AttributesValid pool rest

end

/-- The indices in a method name texts, and its attributes are valid. -/
structure Method.Valid (pool : Pool) (method : Method) : Prop where
  name : pool.names method.name Constant.isText
  descriptor : pool.names method.descriptor Constant.isText
  attributes : AttributesValid pool method.attributes

/-- Every index in a class names a constant of the right kind, and all code is valid. -/
structure File.Valid (file : File) : Prop where
  pool : file.pool.Linked
  thisClass : file.pool.names file.thisClass Constant.isClass
  superClass : file.pool.names file.superClass Constant.isClass
  methods : ∀ method ∈ file.methods, method.Valid file.pool
  attributes : AttributesValid file.pool file.attributes

end Class

end Pictogram
