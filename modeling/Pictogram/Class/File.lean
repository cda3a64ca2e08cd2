import Pictogram.Class.Pool
import Pictogram.Machine.Instruction

/-!
# Classes

A class is a constant pool with methods and attributes that refer to it by
index.  There are no fields and no interfaces.
-/

namespace Pictogram
namespace Class

/-- What a class or a method carries besides its name. -/
inductive Attribute where
  /-- The body of a method. -/
  | code
    (name maxStack maxLocals : UInt16)
    (code : List UInt8)
    (attributes : List Attribute)
  /-- The name of the file that the class was made from. -/
  | sourceFile (name file : UInt16)

/-- The length of a list, as a class states it. -/
def countBytes {α : Type} (list : List α) : List UInt8 :=
  Bytes.unsigned 2 list.length

mutual

/-- The bytes of an attribute.  In front of what it holds stands the length of that: for a body,
12 bytes besides the instructions and the nested attributes. -/
def Attribute.bytes : Attribute → List UInt8
  | .code name maxStack maxLocals code attributes =>
    let nested := attributeBytes attributes
    Bytes.word name ++ Bytes.unsigned 4 (12 + code.length + nested.length) ++
      (Bytes.word maxStack ++ Bytes.word maxLocals ++ Bytes.unsigned 4 code.length ++ code ++
        Bytes.unsigned 2 0 ++ countBytes attributes ++ nested)
  | .sourceFile name file => Bytes.word name ++ Bytes.unsigned 4 2 ++ Bytes.word file

/-- The bytes of attributes one after another. -/
def attributeBytes : List Attribute → List UInt8
  | [] => []
  | first :: rest => first.bytes ++ attributeBytes rest

end

/-- A method. -/
structure Method where
  /-- The access flags. -/
  access : UInt16
  /-- The index of the name. -/
  name : UInt16
  /-- The index of the descriptor. -/
  descriptor : UInt16
  /-- The attributes, usually the body alone. -/
  attributes : List Attribute

/-- The bytes of a method. -/
def Method.bytes (method : Method) : List UInt8 :=
  Bytes.word method.access ++ Bytes.word method.name ++ Bytes.word method.descriptor ++
    countBytes method.attributes ++ attributeBytes method.attributes

/-- A class. -/
structure File where
  /-- The minor version of the format. -/
  minorVersion : UInt16
  /-- The major version of the format. -/
  majorVersion : UInt16
  /-- The constants. -/
  pool : Pool
  /-- The access flags. -/
  access : UInt16
  /-- The index of the class itself. -/
  thisClass : UInt16
  /-- The index of the class that it extends. -/
  superClass : UInt16
  /-- The methods. -/
  methods : List Method
  /-- The attributes. -/
  attributes : List Attribute

namespace File

/-- The bytes that every class begins with. -/
def magic : List UInt8 := [0xCA, 0xFE, 0xBA, 0xBE]

/-- The bytes of a class. -/
def bytes (file : File) : Except Compile.Error (List UInt8) := do
  let pool ← file.pool.bytes
  return magic ++ Bytes.word file.minorVersion ++ Bytes.word file.majorVersion ++ pool ++
    Bytes.word file.access ++ Bytes.word file.thisClass ++ Bytes.word file.superClass ++
    Bytes.unsigned 2 0 ++ Bytes.unsigned 2 0 ++
    countBytes file.methods ++ file.methods.flatMap Method.bytes ++
    countBytes file.attributes ++ attributeBytes file.attributes

/-- The text at an index, or a question mark if there is none. -/
def textAt (file : File) (index : UInt16) : String :=
  match file.pool.get? index with
  | some (.text text) => text
  | _ => "?"

/-- The lines that list an attribute of a method. -/
def attributeListing : Attribute → List String
  | .code _ maxStack maxLocals code _ =>
    s!"  stack={maxStack.toNat}, locals={maxLocals.toNat}" ::
      (Machine.listing code).map fun line => s!"  {line}"
  | .sourceFile .. => []

/-- The lines that list a method. -/
def methodListing (file : File) (method : Method) : List String :=
  s!"{file.textAt method.name}{file.textAt method.descriptor}:" ::
    method.attributes.flatMap attributeListing

/-- The lines that list the instructions of a class. -/
def listing (file : File) : List String :=
  file.methods.flatMap file.methodListing

end File
end Class

/-- Lines as one text, each with a line end. -/
def joinLines (lines : List String) : String :=
  lines.foldl (fun text line => text ++ line ++ "\n") ""

end Pictogram
