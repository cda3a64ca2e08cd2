import Pictogram.Failure
import Pictogram.Log
import Pictogram.Path

/-!
# The machine around a program

What a program asks of the machine that it runs on.  A program is written once
for every such machine: one with files in memory, on which runs can be reasoned
about, and the real one.
-/

namespace Pictogram

/-- Where a program writes to. -/
inductive Channel where
  | output
  | errors
  deriving DecidableEq, Repr

/-- The requests of a program to its machine. -/
class Host (m : Type → Type) where
  /-- The text of a file. -/
  readText : Path → m (Except FileFault String)
  /-- Whether a path leads to a file. -/
  isFile : Path → m Bool
  /-- Makes a directory and those that lead to it. -/
  makeDirectories : Path → m (Except FileFault Unit)
  /-- Writes a file. -/
  writeBytes : Path → ByteArray → m (Except FileFault Unit)
  /-- The directories that may hold settings, the first to be tried first. -/
  settingsDirectories : m (List Path)
  /-- The variable that says what is logged. -/
  logVariable : m (Option String)
  /-- The time, as a log shows it. -/
  time : m String
  /-- Writes a text. -/
  write : Channel → String → m Unit

namespace Host

variable {m : Type → Type} [Monad m]

/-- Work that can be given up runs on the same machine. -/
instance {ε : Type} [Host m] : Host (ExceptT ε m) where
  readText path := ExceptT.lift (readText path)
  isFile path := ExceptT.lift (isFile path)
  makeDirectories path := ExceptT.lift (makeDirectories path)
  writeBytes path content := ExceptT.lift (writeBytes path content)
  settingsDirectories := ExceptT.lift settingsDirectories
  logVariable := ExceptT.lift logVariable
  time := ExceptT.lift time
  write channel text := ExceptT.lift (write channel text)

variable [Host m]

/-- Writes a line. -/
def writeLine (channel : Channel) (text : String) : m Unit :=
  write channel (text ++ "\n")

/-- Prints a line. -/
def say (text : String) : m Unit := writeLine .output text

/-- Writes a line about an error. -/
def complain (text : String) : m Unit := writeLine .errors text

/-- Logs an event, if the filter admits it. -/
def record (filter : Log.Filter) (event : Event) : m Unit := do
  if filter.admits event then complain (Log.line (← time) event)

/-- Logs events. -/
def recordAll (filter : Log.Filter) (events : Array Event) : m Unit :=
  events.toList.forM (record filter)

end Host

end Pictogram
