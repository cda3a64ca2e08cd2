import Std.Time
import Pictogram.CommandLine
import Pictogram.Shell.Piped

/-!
# The program

The command line on the real machine.
-/

namespace Pictogram

/-- Why the machine refused a request. -/
def FileFault.ofError : IO.Error → FileFault
  | .noFileOrDirectory .. => .notFound
  | .alreadyExists .. => .alreadyExists
  | .inappropriateType _ code details =>
    if code = 20 then .notDirectory else if code = 21 then .isDirectory else .other details
  | error => .other (toString error)

/-- The result of a request to the machine. -/
def attempt {α : Type} (request : IO α) : IO (Except FileFault α) := do
  try return .ok (← request)
  catch error => return .error (FileFault.ofError error)

/-- The text of a file. -/
def readFileText (path : Path) : IO (Except FileFault String) := do
  return (← attempt (IO.FS.readBinFile path.text)).bind fun bytes =>
    match String.fromUTF8? bytes with
    | some text => .ok text
    | none => .error .notText

/-- Makes a directory and those that lead to it. -/
def makeDirectory (path : Path) : IO (Except FileFault Unit) := do
  match ← attempt (IO.FS.createDir path.text) with
  | .error .notFound | .error .alreadyExists => attempt (IO.FS.createDirAll path.text)
  | result => return result

/-- The directory of the settings of the user. -/
def userDirectory : IO (Option Path) := do
  match ← IO.getEnv "XDG_CONFIG_HOME", ← IO.getEnv "HOME" with
  | some directory, _ => return some ((Path.mk directory).push ⟨"emojin"⟩)
  | none, some directory => return some ((Path.mk directory).push ⟨".config/emojin"⟩)
  | none, none => return none

instance : Host IO where
  readText := readFileText
  isFile path := do return (← attempt (IO.FS.readBinFile path.text)).isOk
  makeDirectories path :=
    if path.text.isEmpty then return .ok () else makeDirectory path
  writeBytes path content := attempt (IO.FS.writeBinFile path.text content)
  settingsDirectories := do
    let working : Path := ⟨(← IO.currentDir).toString⟩
    return working :: (← userDirectory).toList
  logVariable := IO.getEnv "RUST_LOG"
  time := do
    let now := Std.Time.DateTime.ofTimestamp (← Std.Time.Timestamp.now) .UTC
    return Style.dimmed (now.format "uuuu-MM-dd'T'HH:mm:ss.SSSSSS'Z'")
  write
    | .output, text => do
      IO.print text
      (← IO.getStdout).flush
    | .errors, text => IO.eprint text

/-- Talks with the user until the shell is left or the input is at its end.
What is pending is the start of an input. -/
partial def converse (shell : Shell) (pending : List Char) : IO Unit := do
  let input ← IO.getStdin
  if ← input.isTty then
    if pending.isEmpty then Host.write .output Shell.prompt
  else if pending.isEmpty then Host.record shell.log .noTerminal
  let line ← input.getLine
  if line.isEmpty then
    Shell.endInput
    Shell.leave
  else match Shell.addLine pending line.toList with
    | .partly pending => converse shell pending
    | .complete input =>
      match ← shell.submit input with
      | some shell => converse shell []
      | none => Shell.leave

end Pictogram

/-- The program. -/
def main (arguments : List String) : IO UInt32 := do
  match ← Pictogram.CommandLine.start arguments with
  | .exited code => return code
  | .shell shell =>
    Pictogram.converse shell []
    return 0
