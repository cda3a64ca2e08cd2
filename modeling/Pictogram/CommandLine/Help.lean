import Pictogram.CommandLine.Arguments
import Pictogram.Shell.Screen

/-!
# Help on the command line
-/

namespace Pictogram
namespace CommandLine

/-- What a subcommand does. -/
def Scope.summary : Scope → String
  | .top => "emojin - a programming language written in emoji"
  | .run => "Interpret one or more files"
  | .compile => "Compile files to JVM class files"
  | .tokens => "Print the token stream of a file"
  | .outline => "Print the syntax tree of a file"
  | .shell => "Start the interactive REPL"
  | .help => "Print this message or the help of the given subcommand(s)"

/-- The files of a subcommand as a usage line shows them. -/
def Scope.fileForm : Scope → String
  | .top => " [COMMAND]"
  | .run | .compile => " <FILES>..."
  | .tokens | .outline => " <FILE>"
  | .shell => ""
  | .help => " [COMMAND]..."

/-- The program with a subcommand, between which a text stands. -/
def Scope.fullName (scope : Scope) (between : String) : String :=
  if scope = .top then programName else programName ++ between ++ scope.name

/-- How the arguments of a scope are written. -/
def Scope.usage (scope : Scope) : String :=
  "Usage: " ++ scope.fullName " " ++ (if scope = .help then "" else " [OPTIONS]") ++ scope.fileForm

/-- A switch as help shows it. -/
def Switch.form (switch : Switch) : String :=
  let letter := match switch.letter? with
    | some letter => "-" ++ letter.toString ++ ", "
    | none => "    "
  let value := match switch with
    | .source => " <CODE>"
    | .directory => " <DIR>"
    | .className => " <NAME>"
    | _ => ""
  letter ++ "--" ++ switch.name ++ value

/-- What a switch does. -/
def Switch.summary : Switch → String
  | .verbose => "Enable verbose logging"
  | .source => "Run inline source instead of a file"
  | .directory => "Directory the class files are written to"
  | .className => "Binary name of the generated class (single file only)"
  | .listing => "Print the generated instructions of each class"
  | .help => "Print help"
  | .version => "Print version"

/-- Terms with their meanings in two columns. -/
def columns (entries : List (String × String)) : List String :=
  let width := entries.foldl (fun width (term, _) => max width term.length) 0
  entries.map fun (term, meaning) => "  " ++ Style.left width term ++ "  " ++ meaning

/-- The help on a scope. -/
def Scope.helpLines (scope : Scope) : List String :=
  let subcommands :=
    if scope = .top then
      ["Commands:"] ++ columns (Scope.subcommands.map fun other => (other.name, other.summary)) ++ [""]
    else []
  let files :=
    if scope.needsFile then ["Arguments:"] ++ columns [(String.ofList (scope.fileForm.toList.drop 1),
      if scope.fileLimit? = some 1 then "Source file" else "Source files")] ++ [""]
    else []
  let switches :=
    if scope = .help then []
    else ["Options:"] ++ columns (scope.switches.map fun switch => (switch.form, switch.summary))
  [scope.summary, "", scope.usage, ""] ++ subcommands ++ files ++ switches

/-- The line that gives the version of the program and of a subcommand. -/
def Scope.versionLine (scope : Scope) : String := scope.fullName "-" ++ " " ++ Pictogram.version

/-- What is said about arguments that are used wrongly. -/
def usageError : List String :=
  ["error: these arguments are not understood", "", Scope.top.usage, "",
    "For more information, try '--help'."]

end CommandLine
end Pictogram
