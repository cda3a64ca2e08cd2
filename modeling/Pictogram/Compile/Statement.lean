import Pictogram.Compile.Expression

/-!
# Code of statements

The code of a statement leaves the stack as it was.  A conditional is a row of
tests, each of which leads on to the next if it fails, and each body leads to
the common end.
-/

namespace Pictogram
namespace Compile

open Pictogram.Class (Pool)
open Machine (Opcode)

/-- The code of a test, an integer that is not zero if it holds. -/
def condition (test : Expression) : Emit Unit := do
  let found ← expression test
  if found = .string then throw (.mismatch .boolean found test.position)

/-- The code that prints a value. -/
def print (argument : Expression) : Emit Unit := do
  let stream ← Emit.onPool (Pool.fieldRef "java/lang/System" "out" "Ljava/io/PrintStream;")
  Emit.write (·.emitWord .getStatic stream)
  let type ← expression argument
  let method ← Emit.onPool
    (Pool.methodRef "java/io/PrintStream" "println" s!"({type.descriptor})V")
  Emit.write (·.invoke .invokeVirtual method (-2))

/-- The code of a declaration.  A variable without a first value is zero. -/
def declaration (id : Identifier) (init : Option Expression) : Emit Unit := do
  let type ← match init with
    | some value => expression value
    | none => do
      Emit.pushInt 0
      pure .int
  let slot ← Emit.onSlots (Slots.declare id type)
  Emit.store type slot

/-- The code of an expression for its effect. -/
def effect : Expression → Emit Unit
  | .assign target value => do
    let _ ← assignment target (expression value) value.position false
  | other => do
    let _ ← expression other
    Emit.instruction .pop

/-- The code of a counted loop.  Its last value is held in a slot without a
name. -/
def count (counter : Identifier) (start stop : Expression) (body : Emit Unit) : Emit Unit := do
  require .int start.position (expression start)
  require .int stop.position (expression stop)
  let stopSlot ← Emit.onSlots Slots.hidden
  Emit.store .int stopSlot
  let slot ← Emit.onSlots (Slots.declare counter .int)
  Emit.store .int slot
  let head ← Emit.position
  Emit.load .int slot
  Emit.load .int stopSlot
  let done ← Emit.jump (.ifCompare .greaterOrEqual)
  body
  Emit.write (·.increment slot 1)
  Emit.jumpBack .goto head
  Emit.patch done
  modify fun built => { built with slots := built.slots.remove counter.name }

/-- The code of a loop with a test. -/
def loop (test : Expression) (body : Emit Unit) : Emit Unit := do
  let head ← Emit.position
  condition test
  let done ← Emit.jump .ifZero
  body
  Emit.jumpBack .goto head
  Emit.patch done

/-- The branches of a conditional that are to be filled in. -/
structure Exits where
  /-- The branch taken if the last test fails. -/
  next : Jump
  /-- The branches to the common end. -/
  ends : Array Jump

/-- The code of a first clause. -/
def firstClause (test : Expression) (body : Emit Unit) : Emit Exits := do
  condition test
  let next ← Emit.jump .ifZero
  body
  return ⟨next, #[]⟩

/-- The code of a further clause. -/
def furtherClause (exits : Exits) (test : Expression) (body : Emit Unit) : Emit Exits := do
  let finished ← Emit.jump .goto
  Emit.patch exits.next
  condition test
  let next ← Emit.jump .ifZero
  body
  return ⟨next, exits.ends.push finished⟩

/-- Makes branches lead here. -/
def patchAll : List Jump → Emit Unit
  | [] => pure ()
  | branch :: rest => do
    Emit.patch branch
    patchAll rest

/-- The end of a conditional without an alternate. -/
def closeClauses (exits : Exits) : Emit Unit := do
  Emit.patch exits.next
  patchAll exits.ends.toList

/-- The end of a conditional with an alternate. -/
def closeWith (exits : Exits) (alternate : Emit Unit) : Emit Unit := do
  let finished ← Emit.jump .goto
  Emit.patch exits.next
  alternate
  patchAll (exits.ends.push finished).toList

mutual

/-- The code of a statement. -/
def statement : Statement → Emit Unit
  | .print argument _ => print argument
  | .declare id init => declaration id init
  | .conditional test body elseIfs alternate => do
    let exits ← firstClause test (statements body)
    let exits ← clauses exits elseIfs
    if alternate.isEmpty then closeClauses exits else closeWith exits (statements alternate)
  | .count counter start stop body => count counter start stop (statements body)
  | .loop test body => loop test (statements body)
  | .evaluate expression => effect expression

/-- The code of further clauses. -/
def clauses (exits : Exits) : List Clause → Emit Exits
  | [] => pure exits
  | .mk test body :: rest => do
    let exits ← furtherClause exits test (statements body)
    clauses exits rest

/-- The code of statements one after another. -/
def statements : List Statement → Emit Unit
  | [] => pure ()
  | first :: rest => do
    statement first
    statements rest

end

end Compile
end Pictogram
