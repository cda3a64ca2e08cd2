import Pictogram.Class.EncodedText
import Pictogram.Machine.Bytes

/-!
# Constants

A constant is a text, a number, or a reference to other constants by their
indices.  Numbers of the machine's floating types are held by their bits.
-/

namespace Pictogram
namespace Class

/-- An entry of a constant pool. -/
inductive Constant where
  | text (text : String)
  | integer (value : Int32)
  | float (bits : UInt32)
  | long (value : Int64)
  | double (bits : UInt64)
  /-- A class, by its name. -/
  | classRef (name : UInt16)
  /-- A string object, by its text. -/
  | stringRef (text : UInt16)
  /-- A field, by its class and its signature. -/
  | fieldRef (owner signature : UInt16)
  /-- A method, by its class and its signature. -/
  | methodRef (owner signature : UInt16)
  /-- A method of an interface. -/
  | interfaceMethodRef (owner signature : UInt16)
  /-- A signature: a member's name and its descriptor. -/
  | nameAndType (name descriptor : UInt16)
  deriving DecidableEq, Hashable, Repr

namespace Constant

/-- The byte that tells what a constant is. -/
def tag : Constant → UInt8
  | .text _ => 1
  | .integer _ => 3
  | .float _ => 4
  | .long _ => 5
  | .double _ => 6
  | .classRef _ => 7
  | .stringRef _ => 8
  | .fieldRef .. => 9
  | .methodRef .. => 10
  | .interfaceMethodRef .. => 11
  | .nameAndType .. => 12

/-- Whether the index after the constant's own is unusable. -/
def isWide : Constant → Bool
  | .long _ | .double _ => true
  | _ => false

/-- The number of indices that the constant takes. -/
def width (constant : Constant) : Nat := if constant.isWide then 2 else 1

/-- The bytes of a constant after its tag. -/
def body : Constant → Except Compile.Error (List UInt8)
  | .text content => do
    let encoded ← EncodedText.bytes content
    return Bytes.unsigned 2 encoded.length ++ encoded
  | .integer value => return Bytes.signed 4 value.toInt
  | .float bits => return Bytes.unsigned 4 bits.toNat
  | .long value => return Bytes.signed 8 value.toInt
  | .double bits => return Bytes.unsigned 8 bits.toNat
  | .classRef index | .stringRef index => return Bytes.word index
  | .fieldRef owner signature | .methodRef owner signature
  | .interfaceMethodRef owner signature => return Bytes.word owner ++ Bytes.word signature
  | .nameAndType name descriptor => return Bytes.word name ++ Bytes.word descriptor

/-- The bytes of a constant. -/
def bytes (constant : Constant) : Except Compile.Error (List UInt8) := do
  return constant.tag :: (← constant.body)

end Constant
end Class
end Pictogram
