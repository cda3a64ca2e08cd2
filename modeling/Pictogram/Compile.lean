import Pictogram.Class.File
import Pictogram.Compile.Options
import Pictogram.Compile.Statement

/-!
# From a program to a class

The class of a program has a constructor and a method `main` that does what the
program says.  Constants are numbered in the order in which they come up: the
names of the class, its constructor, the body of `main`, then the rest.
-/

namespace Pictogram
namespace Compile

open Pictogram.Class (Pool Attribute Method)

/-- The name of the class that every class extends. -/
def objectClass : String := "java/lang/Object"

/-- The code of the constructor, which calls the one of the extended class. -/
def constructorCode (superConstructor : UInt16) : Code :=
  ((Code.empty.emit .loadReceiver).invoke .invokeSpecial superConstructor (-1)).emit .leave

/-- The constructor, given the index of the name of code attributes. -/
def constructor (codeName : UInt16) : Pool.Build Method := do
  let superConstructor ← Pool.methodRef objectClass "<init>" "()V"
  let code := constructorCode superConstructor
  let name ← Pool.text "<init>"
  let descriptor ← Pool.text "()V"
  return ⟨0, name, descriptor, [.code codeName code.maxStack 1 code.bytes.toList []]⟩

/-- The constants that every class begins with, and its constructor. -/
structure Opening where
  /-- The index of the class. -/
  thisClass : UInt16
  /-- The index of the class that it extends. -/
  superClass : UInt16
  /-- The index of the name of code attributes. -/
  codeName : UInt16
  /-- The constructor. -/
  constructor : Method

/-- Begins a class. -/
def opening (options : Options) : Pool.Build Opening := do
  let thisClass ← Pool.classRef options.internalName
  let superClass ← Pool.classRef objectClass
  let codeName ← Pool.text "Code"
  let constructor ← constructor codeName
  return ⟨thisClass, superClass, codeName, constructor⟩

/-- The code of a program as the body of a method. -/
def mainBody (program : Program) : Emit Unit := do
  statements program
  Emit.instruction .leave

/-- A class whose methods are complete. -/
structure Draft where
  /-- What the class began with. -/
  opening : Opening
  /-- The constants so far. -/
  pool : Pool
  /-- The greatest depth of the stack in `main`. -/
  maxStack : UInt16
  /-- The number of slots of `main`. -/
  maxLocals : UInt16
  /-- The bytes of `main`. -/
  code : List UInt8

/-- Generates the methods of a class. -/
def draft (options : Options) (program : Program) : Except Error Draft :=
  match opening options .empty with
  | .error error _ => .error error
  | .ok opening pool =>
    match mainBody program (.empty pool) with
    | .error error _ => .error error
    | .ok _ body => do
      let code ← body.code.finish
      return ⟨opening, body.pool, body.code.maxStack, body.slots.maxLocals, code⟩

/-- The method `main` and the attributes of the class. -/
def closing (options : Options) (draft : Draft) : Pool.Build (Method × List Attribute) := do
  let name ← Pool.text "main"
  let descriptor ← Pool.text "([Ljava/lang/String;)V"
  let sourceName ← Pool.text "SourceFile"
  let sourceFile ← Pool.text options.statedSource
  let code := .code draft.opening.codeName draft.maxStack draft.maxLocals draft.code []
  return (⟨0x0009, name, descriptor, [code]⟩, [.sourceFile sourceName sourceFile])

/-- Completes a class. -/
def Draft.classFile (draft : Draft) (options : Options) : Except Error Class.File :=
  match closing options draft draft.pool with
  | .error error _ => .error error
  | .ok (main, attributes) pool => .ok {
      minorVersion := 0
      majorVersion := 52
      pool := pool
      access := 0x0021
      thisClass := draft.opening.thisClass
      superClass := draft.opening.superClass
      methods := [draft.opening.constructor, main]
      attributes := attributes }

/-- The class of a program. -/
def classFile (options : Options) (program : Program) : Except Error Class.File := do
  let draft ← draft options program
  draft.classFile options

/-- The bytes of the class of a program. -/
def classBytes (options : Options) (program : Program) : Except Error (List UInt8) := do
  let file ← classFile options program
  file.bytes

end Compile
end Pictogram
