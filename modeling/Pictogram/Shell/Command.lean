import Pictogram.Text.Blank

/-!
# Commands of the shell

A command is a word after a point, in letters of either case; what follows it
is its argument.
-/

namespace Pictogram
namespace Shell

/-- What the shell can be asked to do. -/
inductive Command where
  | help
  | exit
  | clear
  | version
  | load
  | compile
  | reset
  | vars
  deriving DecidableEq, Repr

namespace Command

/-- All commands. -/
def all : List Command := [.help, .exit, .clear, .version, .load, .compile, .reset, .vars]

/-- The words for a command. -/
def words : Command → List String
  | .help => ["help", "h", "?"]
  | .exit => ["exit", "quit", "q"]
  | .clear => ["clear", "cls"]
  | .version => ["version", "v"]
  | .load => ["load", "l"]
  | .compile => ["compile", "c"]
  | .reset => ["reset"]
  | .vars => ["vars"]

/-- The name of a command. -/
def label : Command → String
  | .help => "Help"
  | .exit => "Exit"
  | .clear => "Clear"
  | .version => "Version"
  | .load => "Load"
  | .compile => "Compile"
  | .reset => "Reset"
  | .vars => "Vars"

/-- How a command is written. -/
def form : Command → String
  | .help => ".help"
  | .exit => ".exit"
  | .clear => ".clear"
  | .version => ".version"
  | .load => ".load <file>"
  | .compile => ".compile <file>"
  | .reset => ".reset"
  | .vars => ".vars"

/-- What a command does. -/
def summary : Command → String
  | .help => "Show this help message"
  | .exit => "Exit the REPL"
  | .clear => "Clear the screen"
  | .version => "Show version information"
  | .load => "Run a file in this session"
  | .compile => "Compile a file to a class file"
  | .reset => "Forget every declared variable"
  | .vars => "List declared variables"

/-- The command and its argument that an input spells. -/
def read (input : String) : Option (Command × Option String) :=
  match Text.trim input.toList with
  | '.' :: rest =>
    let word := String.ofList ((rest.takeWhile (!Text.isBlank ·)).map Char.toLower)
    let argument := Text.trim (rest.dropWhile (!Text.isBlank ·))
    (all.find? fun command => command.words.contains word).map fun command =>
      (command, if argument.isEmpty then none else some (String.ofList argument))
  | _ => none

end Command
end Shell
end Pictogram
