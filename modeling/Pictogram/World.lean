import Pictogram.CommandLine
import Pictogram.Disk
import Pictogram.Shell.Editor
import Pictogram.Shell.Piped

/-!
# A machine in memory

A world holds the files that a program finds and what it has written so far.
On it a run of the program is a function of its arguments and its input.
-/

namespace Pictogram

/-- Files, surroundings, and what has been written. -/
structure World where
  /-- The files. -/
  disk : Disk
  /-- The directories that may hold settings. -/
  settingsDirectories : List Path
  /-- The variable that says what is logged. -/
  logVariable : Option String
  /-- The time, as a log shows it. -/
  time : String
  /-- What was printed. -/
  output : String
  /-- What was written about errors. -/
  errors : String

namespace World

/-- A world before anything is written. -/
def ofDisk (disk : Disk) (settingsDirectories : List Path) (logVariable : Option String) : World :=
  ⟨disk, settingsDirectories, logVariable, "TIME", "", ""⟩

/-- The world after a change of its files, unless the change fails. -/
def change (f : Disk → Except FileFault Disk) : StateM World (Except FileFault Unit) := do
  let world ← get
  match f world.disk with
  | .ok disk =>
    set { world with disk }
    return .ok ()
  | .error fault => return .error fault

instance : Host (StateM World) where
  readText path := do return (← get).disk.readText path
  isFile path := do return (← get).disk.isFile path
  makeDirectories path := change fun disk => disk.makeDirectories path
  writeBytes path content := change fun disk => disk.writeBytes path content
  settingsDirectories := do return (← get).settingsDirectories
  logVariable := do return (← get).logVariable
  time := do return (← get).time
  write channel text := modify fun ⟨disk, directories, setting?, time, output, errors⟩ =>
    match channel with
    | .output => ⟨disk, directories, setting?, time, output ++ text, errors⟩
    | .errors => ⟨disk, directories, setting?, time, output, errors ++ text⟩

/-- What a run of the program leaves behind: its exit code and the world. -/
def run (arguments : List String) (input : String) : StateM World UInt32 := do
  match ← CommandLine.start arguments with
  | .exited code => return code
  | .shell shell =>
    shell.serve (Shell.inputsOf input.toList)
    return 0

/-- A line typed at the prompt: as it was last drawn, and what was printed after
it. -/
structure Turn where
  /-- The line as it was last drawn. -/
  shown : String
  /-- What was printed after it. -/
  output : String

/-- Takes what has been printed away. -/
def takeOutput : StateM World String :=
  modifyGet fun world => (world.output, { world with output := "" })

/-- Serves a line; nothing is left of the shell if it is to be left. -/
def serveLine (shell : Shell) (editor : Shell.Editor) :
    Shell.Pressed → StateM World (Option Shell)
  | .submitted => shell.submit (String.ofList editor.text)
  | .editing => return shell
  | .abandoned => do
    Shell.giveUp
    return shell
  | .ended => do
    Shell.endInput
    return none

/-- Types lines at the prompt of a shell until it is left. -/
def converse (shell : Shell) : List String → StateM World (List Turn)
  | [] => return []
  | keys :: rest => do
    let (editor, pressed) := Shell.Editor.empty.type keys.toList
    match ← serveLine shell editor pressed with
    | some shell =>
      let turn := Turn.mk editor.shown (← takeOutput)
      return turn :: (← converse shell rest)
    | none =>
      Shell.leave
      return [⟨editor.shown, ← takeOutput⟩]

/-- A shell at a terminal: what is printed before the first prompt, and the
lines typed. -/
structure Conversation where
  /-- What is printed before the first prompt. -/
  intro : String
  /-- The lines typed. -/
  turns : List Turn
  /-- The exit code. -/
  code : UInt32

/-- Starts the shell and types lines at its prompt. -/
def type (lines : List String) : StateM World Conversation := do
  let status ← CommandLine.start ["repl"]
  let intro ← takeOutput
  match status with
  | .exited code => return ⟨intro, [], code⟩
  | .shell shell => return ⟨intro, ← converse shell lines, 0⟩

end World

end Pictogram
