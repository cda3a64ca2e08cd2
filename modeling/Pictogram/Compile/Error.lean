import Pictogram.Machine.Opcode
import Pictogram.Number.Layout
import Pictogram.Position

/-!
# Why a program cannot be compiled

Generated code computes with 32-bit integers and booleans and prints them and
fixed texts.  What needs more than that is refused, and so is what does not fit
in a class.
-/

namespace Pictogram
namespace Compile

/-- What generated code can compute with. -/
inductive StaticType where
  | int
  | boolean
  | string
  deriving DecidableEq, Repr

namespace StaticType

/-- The type in words. -/
def describe : StaticType → String
  | .int => "int"
  | .boolean => "boolean"
  | .string => "string"

/-- The type in the descriptor of a method. -/
def descriptor : StaticType → String
  | .int => "I"
  | .boolean => "Z"
  | .string => "Ljava/lang/String;"

/-- What a local variable of the type holds.  Booleans are the integers 0 and
1. -/
def cell : StaticType → Machine.Cell
  | .int | .boolean => .int
  | .string => .reference

/-- Whether a local variable of the type holds a reference. -/
def isReference (type : StaticType) : Bool := type.cell = .reference

end StaticType

/-- What generated code has no instructions for. -/
inductive Unsupported where
  /-- A number that is no 32-bit integer. -/
  | number (value : Float)
  | null
  | concatenation
  | textComparison

/-- The construct in words. -/
def Unsupported.describe : Unsupported → String
  | .number value => s!"number {Number.quoted.write value}"
  | .null => "null"
  | .concatenation => "string concatenation"
  | .textComparison => "string comparison"

/-- Why a program cannot be compiled. -/
inductive Error where
  /-- A construct without instructions for it. -/
  | unsupported (construct : Unsupported) (position : Position)
  /-- A value of another type than the one required. -/
  | mismatch (expected found : StaticType) (position : Position)
  /-- The use of a name without a slot. -/
  | undeclared (name : String) (position : Position)
  /-- The declaration of a name with a slot. -/
  | redeclared (name : String) (position : Position)
  /-- More local variables than there are slots. -/
  | tooManyLocals (limit : Nat)
  /-- More constants than a pool can index. -/
  | poolOverflow
  /-- A text with more encoded bytes than a constant can hold. -/
  | textTooLong (size : Nat)
  /-- A branch further than its operand can say. -/
  | branchOutOfRange (offset : Int)
  /-- A method with more bytes than a method can have. -/
  | codeTooLarge (size : Nat)

/-- The line that reports an error. -/
def report (detail : String) : String := s!"[compile error] {detail}"

/-- The line that reports an error at a position. -/
def reportAt (position : Position) (detail : String) : String :=
  report s!"{position.describe}: {detail}"

/-- That a construct is not supported, in words. -/
def unsupportedText (construct : String) : String := s!"{construct} cannot be compiled"

/-- That a type is not the required one, in words. -/
def mismatchText (expected found : String) : String := s!"expected {expected}, found {found}"

/-- The name of the error. -/
def Error.label : Error → String
  | .unsupported .. => "Unsupported"
  | .mismatch .. => "TypeMismatch"
  | .undeclared .. => "UndefinedVariable"
  | .redeclared .. => "AlreadyDeclared"
  | .tooManyLocals _ => "TooManyLocals"
  | .poolOverflow => "ConstantPoolOverflow"
  | .textTooLong _ => "StringTooLong"
  | .branchOutOfRange _ => "BranchOutOfRange"
  | .codeTooLarge _ => "CodeTooLarge"

/-- The line that reports the error. -/
def Error.message : Error → String
  | .unsupported construct position => reportAt position (unsupportedText construct.describe)
  | .mismatch expected found position =>
    reportAt position (mismatchText expected.describe found.describe)
  | .undeclared name position => reportAt position s!"variable {name} is not declared"
  | .redeclared name position => reportAt position s!"variable {name} is already declared"
  | .tooManyLocals limit => report s!"too many local variables (limit {limit})"
  | .poolOverflow => report "constant pool overflow"
  | .textTooLong size => report s!"string constant is {size} bytes, limit is 65535"
  | .branchOutOfRange offset => report s!"branch offset {offset} out of range"
  | .codeTooLarge size => report s!"method code is {size} bytes, limit is 65535"

end Compile
end Pictogram
