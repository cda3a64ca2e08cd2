import Pictogram.CommandLine.ClassOutput
import Pictogram.Session
import Pictogram.Shell.Balance
import Pictogram.Shell.Highlight
import Pictogram.Shell.Screen

/-!
# The shell

The shell takes one complete input after another: a command, or a source that
runs in its session.
-/

namespace Pictogram

/-- A shell that awaits input. -/
structure Shell where
  /-- The session that sources run in. -/
  session : Session
  /-- The directory of class files. -/
  outputDirectory : Path
  /-- What is logged. -/
  log : Log.Filter

namespace Shell

variable {m : Type → Type} [Monad m] [Host m]

/-- Prints lines. -/
def sayAll (lines : List String) : m Unit := lines.forM Host.say

/-- Writes a line about an error. -/
def complain (message : String) : m Unit := Host.complain (errorLine message)

/-- Runs a source. -/
def eval (shell : Shell) (source : String) : m Shell := do
  let (evaluation, session) := shell.session.eval source
  Host.recordAll shell.log evaluation.events
  sayAll evaluation.lines
  if let some failure := evaluation.failure then complain failure.message
  return { shell with session }

/-- Runs a file. -/
def load (shell : Shell) (path : Path) : m Shell := do
  match ← Host.readText path with
  | .ok source => shell.eval source
  | .error fault =>
    complain s!"{path.text}: {fault.describe}"
    return shell

/-- Compiles a file. -/
def compile (shell : Shell) (path : Path) : m Unit := do
  match ← Host.readText path with
  | .error fault => complain s!"{path.text}: {fault.describe}"
  | .ok source =>
    match shell.session.compile source #[] with
    | .error failure events =>
      Host.recordAll shell.log events
      complain failure.message
    | .ok bytes events =>
      Host.recordAll shell.log events
      match ← (CommandLine.writeClass shell.outputDirectory shell.session.options bytes).run with
      | .error message => complain message
      | .ok target =>
        let size := toString bytes.length
        Host.say (Style.paint .green "Wrote" ++ " " ++ Style.paint .cyan target.text ++ " (" ++
          size ++ " bytes)")

/-- The lines that show the variables of a store. -/
def variableLines (store : Store) : List String :=
  if store.isEmpty then [Style.dimmed "No variables declared"]
  else store.sorted.map fun (name, value) =>
    "  " ++ name ++ " " ++ Cluster.join [Symbol.finger] ++ " " ++ shownValue value

/-- Follows a command; nothing is left of the shell if it is to be left. -/
def follow (shell : Shell) : Command → Option String → m (Option Shell)
  | .help, _ => do sayAll help; return shell
  | .exit, _ => return none
  | .clear, _ => do Host.write .output "\x1b[2J\x1b[H"; return shell
  | .version, _ => do sayAll versionLines; return shell
  | .load, some path => some <$> shell.load ⟨path⟩
  | .load, none => do Host.complain (missingFile ".load"); return shell
  | .compile, some path => do shell.compile ⟨path⟩; return shell
  | .compile, none => do Host.complain (missingFile ".compile"); return shell
  | .reset, _ => do
    Host.say (Style.dimmed "Session reset")
    return some { shell with session := shell.session.reset }
  | .vars, _ => do sayAll (variableLines shell.session.store); return shell

/-- Takes a complete input; nothing is left of the shell if it is to be left. -/
def submit (shell : Shell) (input : String) : m (Option Shell) := do
  let trimmed := String.ofList (Text.trim input.toList)
  if trimmed.isEmpty then return shell
  else match Command.read trimmed with
    | some (command, argument) => shell.follow command argument
    | none => some <$> shell.eval trimmed

/-- Shows that an input is given up. -/
def giveUp : m Unit := Host.say (Style.dimmed "^C")

/-- Shows that the input is at its end. -/
def endInput : m Unit := Host.say (Style.dimmed "^D")

/-- Takes the leave. -/
def leave : m Unit := sayAll farewell

end Shell

end Pictogram
