import Pictogram.CommandLine.Help
import Pictogram.Settings
import Pictogram.Shell
import Pictogram.Syntax.Outline
import Pictogram.Text.Quoted

/-!
# The command line

Every subcommand writes to its machine and ends with an exit code, except for
the shell, which awaits input.  Work that is given up leaves one line that says
why.
-/

namespace Pictogram
namespace CommandLine

variable {m : Type → Type} [Monad m] [Host m]

/-- How a run of the program stands after its arguments are served. -/
inductive Status where
  /-- It is done. -/
  | exited (code : UInt32)
  /-- A shell awaits input. -/
  | shell (shell : Shell)

/-- The exit code of a run. -/
def exitCode (failed : Bool) : UInt32 := if failed then 1 else 0

/-- The settings in the first of the directories that holds some. -/
def settingsIn (log : Log.Filter) : List Path → ExceptT String m Settings
  | [] => do
    Host.record log .noSettings
    return .default
  | directory :: rest => do
    let path := directory.push ⟨Settings.fileName⟩
    if ← Host.isFile path then
      let text ← orGiveUp s!"failed to read {path.text}" (← Host.readText path)
      match Settings.read text with
      | none => throw s!"invalid {path.text}: no settings in the form of TOML"
      | some settings =>
        Host.record log (.loadedSettings path.text)
        return settings
    else settingsIn log rest

/-- Runs a source. -/
def runSource (log : Log.Filter) (source : String) : m UInt32 := do
  let (evaluation, _) := (Session.ofOptions .default).eval source
  Host.recordAll log evaluation.events
  evaluation.lines.forM Host.say
  match evaluation.failure with
  | none => return exitCode false
  | some failure =>
    Host.record log (.runFailed failure.message)
    Host.complain (Style.paint .red failure.message)
    return exitCode true

/-- Runs a file, without showing what it printed. -/
def runFile (log : Log.Filter) (path : Path) : m (Except FileFault Transcript) := do
  match ← Host.readText path with
  | .error fault => return .error fault
  | .ok source =>
    Host.record log (.runningFile path.text)
    let (evaluation, _) := (Session.ofOptions .default).eval source
    Host.recordAll log evaluation.events
    return .ok evaluation.transcript

/-- Shows what files printed, one after another. -/
def showRuns (failed : Bool) : List (Path × Except FileFault Transcript) → ExceptT String m UInt32
  | [] => return exitCode failed
  | (path, .error fault) :: _ =>
    throw s!"failed to run {path.text}: {(Failure.file fault).message}: {fault.describe}"
  | (path, .ok transcript) :: rest => do
    transcript.lines.toList.forM Host.say
    transcript.errors.toList.forM fun line =>
      Host.complain (Style.paint .cyan path.text ++ ": " ++ Style.paint .red line)
    showRuns (failed || !transcript.errors.isEmpty) rest

/-- Runs files. -/
def runFiles (log : Log.Filter) (files : List Path) : ExceptT String m UInt32 := do
  let runs ← files.mapM fun path => do return (path, ← runFile log path)
  showRuns false runs

/-- A file to be compiled. -/
structure Job where
  /-- The file. -/
  path : Path
  /-- How its class is named. -/
  options : Compile.Options
  /-- The source in it. -/
  source : String

/-- The options of the class of one of the files. -/
def jobOptions
    (settings : CompileSettings)
    (className : Option String)
    (fileCount : Nat)
    (path : Path) : Compile.Options :=
  if className.isSome || fileCount = 1 then settings.options className
  else .ofClassName (Compile.Options.classNameOf path)

/-- The text of a file. -/
def readSource (path : Path) : ExceptT String m String := do
  orGiveUp s!"failed to read {path.text}" (← Host.readText path)

/-- Lists the class of a source. -/
def showListing (log : Log.Filter) (options : Compile.Options) (source : String) : m Unit := do
  match Work.listing options source #[] with
  | .ok listing events =>
    Host.recordAll log events
    Host.say (Style.boldPaint .brightCyan options.className)
    listing.forM Host.say
  | .error failure events =>
    Host.recordAll log events
    Host.complain (Style.paint .red failure.message)

/-- Compiles a job, without writing the class. -/
def compileJob (log : Log.Filter) (job : Job) : m (Except Failure (List UInt8)) := do
  match Work.classBytes job.options job.source #[] with
  | .ok bytes events =>
    Host.recordAll log events
    return .ok bytes
  | .error failure events =>
    Host.recordAll log events
    return .error failure

/-- Writes the class of a job, or shows why there is none; says whether there is
one. -/
def finishJob
    (log : Log.Filter)
    (root : Path)
    (listing : Bool)
    (job : Job) : Except Failure (List UInt8) → ExceptT String m Bool
  | .error failure => do
    Host.complain (Style.paint .cyan job.path.text ++ ": " ++ Style.paint .red failure.message)
    return false
  | .ok bytes => do
    let target ← writeClass root job.options bytes
    let size := toString bytes.length
    Host.say (Style.boldPaint .green "Compiled" ++ " " ++ job.path.text ++ " -> " ++
      Style.paint .cyan target.text ++ " (" ++ size ++ " bytes)")
    if listing then showListing log job.options job.source
    return true

/-- Compiles files. -/
def compileFiles
    (log : Log.Filter)
    (settings : CompileSettings)
    (files : List Path)
    (directory : Option Path)
    (className : Option String)
    (listing : Bool) : ExceptT String m UInt32 := do
  if className.isSome && 1 < files.length then throw "--class-name needs exactly one input file"
  let jobs ← files.mapM fun path => do
    let source ← readSource path
    return Job.mk path (jobOptions settings className files.length path) source
  let results ← jobs.mapM fun job => do return (job, ← compileJob log job)
  let root := directory.getD settings.outputDirectory
  let written ← results.mapM fun (job, result) => finishJob log root listing job result
  return exitCode (written.contains false)

/-- The line that shows a token. -/
def tokenLine (source : String) (token : Token) : String :=
  let place := Style.right 4 (toString token.position.line) ++ ":" ++
    Style.left 4 (toString token.position.column) ++ " "
  match token.kind with
  | .endOfInput => place ++ Style.dimmed "EOF"
  | kind =>
    let name := match kind.text? with
      | some text => kind.label ++ "(" ++ Text.quoted text ++ ")"
      | none => kind.label
    place ++ Style.paint .yellow (Style.left 14 name) ++ " " ++ token.span.slice source

/-- Shows the tokens of a file. -/
def showTokens (log : Log.Filter) (path : Path) : ExceptT String m UInt32 := do
  let source ← readSource path
  let tokens := tokenize source
  Host.record log (.tokenized tokens.length)
  tokens.forM fun token => Host.say (tokenLine source token)
  return exitCode false

/-- Shows the syntax tree of a file. -/
def showOutline (log : Log.Filter) (path : Path) : ExceptT String m UInt32 := do
  let source ← readSource path
  match Work.program source #[] with
  | .ok program events =>
    Host.recordAll log events
    program.forM fun statement => Host.say statement.outline
    return exitCode false
  | .error failure events =>
    Host.recordAll log events
    Host.complain (Style.paint .red failure.message)
    return exitCode true

/-- Starts the shell. -/
def openShell (log : Log.Filter) (settings : Settings) : m Shell := do
  if settings.shell.banner then Shell.sayAll Shell.banner
  return ⟨.ofOptions (settings.compile.options none), settings.compile.outputDirectory, log⟩

/-- Serves a request. -/
def serve (log : Log.Filter) (request : Request) : ExceptT String m Status := do
  let settings ← settingsIn log (← Host.settingsDirectories)
  match request.source, request.command with
  | some source, _ => return .exited (← runSource log source)
  | none, .run files => return .exited (← runFiles log files)
  | none, .compile files directory className listing =>
    return .exited (← compileFiles log settings.compile files directory className listing)
  | none, .tokens file => return .exited (← showTokens log file)
  | none, .outline file => return .exited (← showOutline log file)
  | none, .shell => return .shell (← openShell log settings)

/-- Answers arguments that make no request. -/
def refuse : Refusal → m UInt32
  | .usage => do
    usageError.forM Host.complain
    return 2
  | .help scope => do
    scope.helpLines.forM Host.say
    return 0
  | .version scope => do
    Host.say scope.versionLine
    return 0

/-- Starts the program with its arguments. -/
def start (arguments : List String) : m Status := do
  match Request.read arguments with
  | .error refusal => return .exited (← refuse refusal)
  | .ok request =>
    let log := Log.Filter.choose (← Host.logVariable) request.verbose
    match ← (serve log request).run with
    | .ok status => return status
    | .error message =>
      Host.complain (Style.boldPaint .red "Error" ++ ": " ++ message)
      return .exited (exitCode true)

end CommandLine
end Pictogram
