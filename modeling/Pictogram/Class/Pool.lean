import Pictogram.Class.Constant
import Std.Data.HashMap

/-!
# Constant pools

A pool gives each constant an index, from 1 up, and gives equal constants the
same one.  A wide constant makes the index after its own unusable.  Constants
are only ever added; one that no index is left for is refused.
-/

namespace Pictogram
namespace Class

/-- Constants by index. -/
structure Pool where
  /-- The entries from index 1 on; the unusable ones are empty. -/
  entries : Array (Option Constant)
  /-- The index of each constant. -/
  indices : Std.HashMap Constant UInt16

namespace Pool

/-- No constant. -/
def empty : Pool := ⟨#[], ∅⟩

/-- Additions to a pool.  What has been added stays when a later addition is
refused. -/
abbrev Build := EStateM Compile.Error Pool

/-- The bound of indices. -/
def indexBound : Nat := 65535

/-- The pool with a constant at its next index. -/
def append : Pool → Constant → Pool
  | ⟨entries, indices⟩, constant =>
    let index := UInt16.ofNat (entries.size + 1)
    let entries := entries.push (some constant)
    ⟨if constant.isWide then entries.push none else entries, indices.insert constant index⟩

/-- The index of a constant, which is added if it is new. -/
def add (constant : Constant) : Build UInt16 := fun pool =>
  match pool.indices[constant]? with
  | some index => .ok index pool
  | none =>
    let index := pool.entries.size + 1
    if index + constant.width ≤ indexBound then
      .ok (UInt16.ofNat index) (pool.append constant)
    else .error .poolOverflow pool

/-- The index of a text. -/
def text (text : String) : Build UInt16 := add (.text text)

/-- The index of a class, by its name. -/
def classRef (name : String) : Build UInt16 := do
  let name ← Pool.text name
  add (.classRef name)

/-- The index of a string object. -/
def stringRef (text : String) : Build UInt16 := do
  let text ← Pool.text text
  add (.stringRef text)

/-- The index of an integer. -/
def integer (value : Int32) : Build UInt16 := add (.integer value)

/-- The index of a number of single precision, by its bits. -/
def float (bits : UInt32) : Build UInt16 := add (.float bits)

/-- The index of a long integer. -/
def long (value : Int64) : Build UInt16 := add (.long value)

/-- The index of a number of double precision, by its bits. -/
def double (bits : UInt64) : Build UInt16 := add (.double bits)

/-- The index of a signature. -/
def nameAndType (name descriptor : String) : Build UInt16 := do
  let name ← Pool.text name
  let descriptor ← Pool.text descriptor
  add (.nameAndType name descriptor)

/-- The index of a field. -/
def fieldRef (owner name descriptor : String) : Build UInt16 := do
  let owner ← classRef owner
  let signature ← nameAndType name descriptor
  add (.fieldRef owner signature)

/-- The index of a method. -/
def methodRef (owner name descriptor : String) : Build UInt16 := do
  let owner ← classRef owner
  let signature ← nameAndType name descriptor
  add (.methodRef owner signature)

/-- The constant at an index. -/
def get? (pool : Pool) (index : UInt16) : Option Constant :=
  match index.toNat with
  | 0 => none
  | place + 1 => (pool.entries[place]?).join

/-- The number of indices taken. -/
def size (pool : Pool) : Nat := pool.entries.size

/-- Whether there is no constant. -/
def isEmpty (pool : Pool) : Bool := pool.entries.isEmpty

/-- One more than the number of indices taken, as a class states it. -/
def count (pool : Pool) : UInt16 := UInt16.ofNat (pool.size + 1)

/-- The constants in the order of their indices. -/
def constants (pool : Pool) : List Constant :=
  pool.entries.toList.filterMap id

/-- The bytes of a pool. -/
def bytes (pool : Pool) : Except Compile.Error (List UInt8) := do
  let parts ← pool.constants.mapM Constant.bytes
  return Bytes.word pool.count ++ parts.flatten

end Pool
end Class
end Pictogram
