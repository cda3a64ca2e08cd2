import Pictogram.Compile
import Pictogram.Event
import Pictogram.Failure
import Pictogram.Parse.Statement

/-!
# Work on a source

The steps from a source text to a program, a class or a listing.  Each step
tells what it did, and what it told stays when a later step fails.
-/

namespace Pictogram

/-- Work that may fail, with the events so far. -/
abbrev Work := EStateM Failure (Array Event)

namespace Work

/-- Tells an event. -/
def tell (event : Event) : Work Unit := modify fun events => events.push event

/-- The result of a step of compilation. -/
def compiled {α : Type} : Except Compile.Error α → Work α
  | .ok value => pure value
  | .error error => throw (.compile error)

/-- The program that a source spells. -/
def program (source : String) : Work Program := do
  let tokens := tokenize source
  tell (.tokenized tokens.length)
  match parseTokens tokens with
  | .ok program =>
    tell (.parsed program.length)
    return program
  | .error error => throw (.parse error)

/-- The class of a source. -/
def classFile (options : Compile.Options) (source : String) : Work Class.File := do
  let program ← program source
  let draft ← compiled (Compile.draft options program)
  tell (.compiledMain draft.code.length draft.maxStack.toNat draft.maxLocals.toNat)
  compiled (draft.classFile options)

/-- The bytes of the class of a source. -/
def classBytes (options : Compile.Options) (source : String) : Work (List UInt8) := do
  let file ← classFile options source
  let bytes ← compiled file.bytes
  tell (.wroteClass options.className file.pool.size bytes.length)
  return bytes

/-- The lines that list the instructions of the class of a source. -/
def listing (options : Compile.Options) (source : String) : Work (List String) := do
  let file ← classFile options source
  return file.listing

/-- The result of work, without its events. -/
def result {α : Type} (work : Work α) : Except Failure α :=
  match work #[] with
  | .ok value _ => .ok value
  | .error failure _ => .error failure

end Work

end Pictogram
