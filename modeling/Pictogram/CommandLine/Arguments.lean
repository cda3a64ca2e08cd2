import Pictogram.Path

/-!
# Arguments of the command line

Arguments are switches, a subcommand, and files.  A switch has a long name and
perhaps a letter; letters can be put together, and a value follows its switch
at once, after an equals sign, or as the next argument.  After two hyphens
there are no switches any more.
-/

namespace Pictogram
namespace CommandLine

/-- Where arguments stand: at the top or after a subcommand. -/
inductive Scope where
  | top
  | run
  | compile
  | tokens
  | outline
  | shell
  | help
  deriving DecidableEq, Repr

/-- A switch. -/
inductive Switch where
  | verbose
  | source
  | directory
  | className
  | listing
  | help
  | version
  deriving DecidableEq, Repr

namespace Switch

/-- The long name of a switch. -/
def name : Switch → String
  | .verbose => "verbose"
  | .source => "eval"
  | .directory => "output"
  | .className => "class-name"
  | .listing => "disassemble"
  | .help => "help"
  | .version => "version"

/-- The letter of a switch. -/
def letter? : Switch → Option Char
  | .verbose => some 'v'
  | .source => some 'e'
  | .directory => some 'o'
  | .className => none
  | .listing => some 'd'
  | .help => some 'h'
  | .version => some 'V'

/-- Whether a value belongs to a switch. -/
def hasValue : Switch → Bool
  | .source | .directory | .className => true
  | _ => false

end Switch

namespace Scope

/-- The subcommands. -/
def subcommands : List Scope := [.run, .compile, .tokens, .outline, .shell, .help]

/-- The name of a subcommand. -/
def name : Scope → String
  | .top => ""
  | .run => "run"
  | .compile => "compile"
  | .tokens => "tokens"
  | .outline => "ast"
  | .shell => "repl"
  | .help => "help"

/-- The subcommand that a word stands for. -/
def ofWord? (word : String) : Option Scope :=
  if word = "c" then some .compile
  else subcommands.find? fun scope => scope.name = word

/-- The switches that are known in a scope. -/
def switches : Scope → List Switch
  | .top => [.verbose, .source, .help, .version]
  | .compile => [.directory, .className, .listing, .verbose, .help, .version]
  | _ => [.verbose, .help, .version]

/-- The largest number of files of a subcommand, if there is one. -/
def fileLimit? : Scope → Option Nat
  | .run | .compile => none
  | .tokens | .outline => some 1
  | .top | .shell | .help => some 0

/-- Whether a subcommand needs a file. -/
def needsFile : Scope → Bool
  | .run | .compile | .tokens | .outline => true
  | .top | .shell | .help => false

end Scope

/-- Why arguments are no request. -/
inductive Refusal where
  /-- They are used wrongly. -/
  | usage
  /-- They ask for help. -/
  | help (scope : Scope)
  /-- They ask for the version. -/
  | version (scope : Scope)
  deriving DecidableEq, Repr

/-- The arguments of a scope. -/
structure Found where
  /-- The switches without a value. -/
  flags : List Switch
  /-- The switches with their values. -/
  values : List (Switch × String)
  /-- The files, in order. -/
  files : List Path
  deriving Repr

namespace Found

/-- No arguments. -/
def empty : Found := ⟨[], [], []⟩

/-- One more switch without a value, which must not be there already. -/
def addFlag (found : Found) (scope : Scope) (switch : Switch) : Except Refusal Found :=
  match switch with
  | .help => .error (.help scope)
  | .version => .error (.version scope)
  | switch =>
    if found.flags.contains switch then .error .usage
    else .ok { found with flags := switch :: found.flags }

/-- One more switch with its value, which must not be there already.  The path
of a directory is not empty. -/
def addValue (found : Found) (switch : Switch) (value : String) : Except Refusal Found :=
  if (found.values.lookup switch).isSome || (switch = .directory && value.isEmpty) then
    .error .usage
  else .ok { found with values := (switch, value) :: found.values }

/-- One more file, whose path is not empty. -/
def addFile (found : Found) (scope : Scope) (path : String) : Except Refusal Found :=
  if path.isEmpty || scope.fileLimit?.any (· ≤ found.files.length) then .error .usage
  else .ok { found with files := found.files ++ [⟨path⟩] }

/-- The letters of an argument.  If the last of them lacks its value, its switch
is given as well. -/
def addLetters (found : Found) (scope : Scope) :
    List Char → Except Refusal (Found × Option Switch)
  | [] => .ok (found, none)
  | letter :: rest =>
    match scope.switches.find? fun switch => switch.letter? = some letter with
    | none => .error .usage
    | some switch =>
      if switch.hasValue then
        match rest with
        | [] => .ok (found, some switch)
        | '=' :: value => do return (← found.addValue switch (String.ofList value), none)
        | value => do return (← found.addValue switch (String.ofList value), none)
      else do
        let found ← found.addFlag scope switch
        found.addLetters scope rest

/-- A long name, with a value perhaps.  If it lacks its value, its switch is
given as well. -/
def addName (found : Found) (scope : Scope) (text : List Char) :
    Except Refusal (Found × Option Switch) :=
  let name := String.ofList (text.takeWhile (· ≠ '='))
  match scope.switches.find? fun switch => switch.name = name with
  | none => .error .usage
  | some switch =>
    match switch.hasValue, text.dropWhile (· ≠ '=') with
    | true, [] => .ok (found, some switch)
    | true, _ :: value => do return (← found.addValue switch (String.ofList value), none)
    | false, [] => do return (← found.addFlag scope switch, none)
    | false, _ :: _ => .error .usage

end Found

/-- Whether an argument can be the value of a switch before it. -/
def isValue (argument : String) : Bool :=
  match argument.toList with
  | '-' :: _ :: _ => false
  | _ => true

/-- The arguments of a scope; at the top also the subcommand and the arguments
after it.  In a `plain` list there are no switches. -/
def scan (scope : Scope) : (plain : Bool) → Found → List String →
    Except Refusal (Found × Option (Scope × List String))
  | _, found, [] => .ok (found, none)
  | true, found, argument :: rest => do
    scan scope true (← found.addFile scope argument) rest
  | false, found, argument :: rest =>
    match argument.toList with
    | ['-', '-'] => scan scope true found rest
    | '-' :: next :: text =>
      let added := if next = '-' then found.addName scope text
        else found.addLetters scope (next :: text)
      match added, rest with
      | .error refusal, _ => .error refusal
      | .ok (found, none), rest => scan scope false found rest
      | .ok (_, some _), [] => .error .usage
      | .ok (found, some switch), value :: rest =>
        if isValue value then do scan scope false (← found.addValue switch value) rest
        else .error .usage
    | _ =>
      match scope, Scope.ofWord? argument with
      | .top, some subcommand => .ok (found, some (subcommand, rest))
      | scope, _ => do scan scope false (← found.addFile scope argument) rest

/-- What a subcommand is to do. -/
inductive Command where
  /-- Run files. -/
  | run (files : List Path)
  /-- Compile files. -/
  | compile
    (files : List Path)
    (directory : Option Path)
    (className : Option String)
    (listing : Bool)
  /-- Show the tokens of a file. -/
  | tokens (file : Path)
  /-- Show the syntax tree of a file. -/
  | outline (file : Path)
  /-- Start the shell. -/
  | shell
  deriving Repr

/-- What the program is to do. -/
structure Request where
  /-- Whether to log more. -/
  verbose : Bool
  /-- A source to run, before all else. -/
  source : Option String
  /-- The subcommand. -/
  command : Command
  deriving Repr

/-- The command that the arguments of a subcommand give. -/
def Found.command (found : Found) : Scope → Except Refusal Command
  | .run => .ok (.run found.files)
  | .compile =>
    .ok (.compile found.files ((found.values.lookup .directory).map Path.mk)
      (found.values.lookup .className) (found.flags.contains .listing))
  | .tokens => (found.files.head?.map Command.tokens).elim (.error .usage) .ok
  | .outline => (found.files.head?.map Command.outline).elim (.error .usage) .ok
  | .shell | .top => .ok .shell
  | .help => .error .usage

/-- The help that is asked for by subcommands in words. -/
def helpFor : List String → Refusal
  | [] => .help .top
  | [word] => (Scope.ofWord? word).elim .usage .help
  | _ => .usage

/-- The request that arguments make. -/
def Request.read (arguments : List String) : Except Refusal Request := do
  let (top, after) ← scan .top false .empty arguments
  let source := top.values.lookup .source
  match after with
  | none => return ⟨top.flags.contains .verbose, source, .shell⟩
  | some (.help, words) => throw (helpFor words)
  | some (scope, rest) =>
    let (found, _) ← scan scope false .empty rest
    if scope.needsFile && found.files.isEmpty then throw .usage
    return ⟨top.flags.contains .verbose || found.flags.contains .verbose, source,
      ← found.command scope⟩

end CommandLine
end Pictogram
