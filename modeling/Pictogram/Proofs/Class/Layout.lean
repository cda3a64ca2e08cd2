import Pictogram.Class.File
import Pictogram.Proofs.Class.DecodedText
import Pictogram.Proofs.Class.Reader
import Pictogram.Proofs.Machine.Execution

/-!
# The layout of a class

A class is read by the layout that the machine's manual gives.  The reader
knows nothing of how classes are written: it tells constants by the numbers of
the manual, and attributes by the texts that their names stand for.
-/

namespace Pictogram
namespace Class

/-- What the bytes of a class tell. -/
structure Contents where
  /-- The minor version of the format. -/
  minorVersion : UInt16
  /-- The major version of the format. -/
  majorVersion : UInt16
  /-- The entries of the constant pool from index 1 on; the unusable ones are empty. -/
  entries : List (Option Constant)
  /-- The access flags. -/
  access : UInt16
  /-- The index of the class itself. -/
  thisClass : UInt16
  /-- The index of the class that it extends. -/
  superClass : UInt16
  /-- The methods. -/
  methods : List Method
  /-- The attributes. -/
  attributes : List Attribute

namespace Reader

/-- All the bytes that are left, as a text. -/
def text : Reader String := fun bytes =>
  (EncodedText.decode? bytes).map (·, [])

/-- A constant, after its tag. -/
def constantBody : UInt8 → Reader Constant
  | 1 => do return .text (← within (← number 2) text)
  | 3 => do return .integer (← int32)
  | 4 => do return .float (← bits32)
  | 5 => do return .long (← int64)
  | 6 => do return .double (← bits64)
  | 7 => do return .classRef (← word)
  | 8 => do return .stringRef (← word)
  | 9 => do return .fieldRef (← word) (← word)
  | 10 => do return .methodRef (← word) (← word)
  | 11 => do return .interfaceMethodRef (← word) (← word)
  | 12 => do return .nameAndType (← word) (← word)
  | _ => failure

/-- A constant. -/
def constant : Reader Constant := do
  constantBody (← byte)

/-- Constants that fill as many entries as are said.  A number of eight bytes takes two. -/
def entries : Nat → Reader (List (Option Constant))
  | 0 => pure []
  | count + 1 => do
    let first ← constant
    if first.isWide then
      match count with
      | 0 => failure
      | count + 1 => return some first :: none :: (← entries count)
    else return some first :: (← entries count)

/-- A constant pool. -/
def pool : Reader (List (Option Constant)) := do
  match ← number 2 with
  | 0 => failure
  | count + 1 => entries count

/-- The number of things that a class of this kind does not have. -/
def absent : Reader Unit := literal [0, 0]

/-- The body of an attribute, by the text of its name. -/
def attributeBody
    (name : UInt16)
    (text : Option String)
    (nested : Reader (List Attribute)) : Reader Attribute :=
  match text with
  | some "Code" => do
    let maxStack ← word
    let maxLocals ← word
    let code ← take (← number 4)
    -- There are no exception handlers.
    absent
    return .code name maxStack maxLocals code (← nested)
  | some "SourceFile" => do return .sourceFile name (← word)
  | _ => failure

/-- An attribute, in which others are nested up to a depth. -/
def attributeUpTo (text? : UInt16 → Option String) : Nat → Reader Attribute
  | 0 => failure
  | depth + 1 => do
    let name ← word
    let length ← number 4
    within length (attributeBody name (text? name) (counted (attributeUpTo text? depth)))

/-- Attributes.  They are not nested deeper than there are bytes. -/
def attributes (text? : UInt16 → Option String) : Reader (List Attribute) := fun bytes =>
  counted (attributeUpTo text? bytes.length) bytes

/-- A method. -/
def method (text? : UInt16 → Option String) : Reader Method := do
  let access ← word
  let name ← word
  let descriptor ← word
  return ⟨access, name, descriptor, ← attributes text?⟩

/-- The text at an index of a constant pool. -/
def textAt? (entries : List (Option Constant)) (index : UInt16) : Option String :=
  match index.toNat with
  | 0 => none
  | place + 1 =>
    match entries[place]? with
    | some (some (.text text)) => some text
    | _ => none

/-- A class. -/
def contents : Reader Contents := do
  literal [0xCA, 0xFE, 0xBA, 0xBE]
  let minorVersion ← word
  let majorVersion ← word
  let entries ← pool
  let access ← word
  let thisClass ← word
  let superClass ← word
  -- There are no interfaces and no fields.
  absent
  absent
  let methods ← counted (method (textAt? entries))
  let attributes ← attributes (textAt? entries)
  return { minorVersion, majorVersion, entries, access, thisClass, superClass, methods, attributes }

end Reader

/-- What bytes tell, all of them being the bytes of one class. -/
def Contents.read? (bytes : List UInt8) : Option Contents :=
  Reader.contents.whole? bytes

end Class
end Pictogram
