import Pictogram.Shell.Command
import Pictogram.Shell.Keyword
import Pictogram.Style

/-!
# Texts of the shell
-/

namespace Pictogram

/-- The name of the program. -/
def programName : String := "emojin"

/-- The version of the program. -/
def version : String := "0.1.0"

namespace Shell

/-- Where input is asked for. -/
def prompt : String := Style.boldPaint .brightGreen "emojin>" ++ " "

/-- What the shell greets with. -/
def banner : List String :=
  let pictures := Cluster.join [Symbol.loudspeaker, Symbol.tag, Symbol.thinking, Symbol.recycle,
    Symbol.repeating]
  ["",
    "  " ++ Style.bold pictures ++ "  " ++ Style.boldPaint .brightCyan programName ++ " " ++
      Style.dimmed "v" ++ " " ++ Style.paint .brightYellow version,
    "  " ++ Style.dimmed "A programming language written in emoji",
    "",
    "  " ++ Style.dimmed "Type" ++ " " ++ Style.paint .cyan ".help" ++ " " ++
      Style.dimmed "for available commands," ++ " " ++
      Style.dimmed "Tab to turn a word into its emoji",
    ""]

/-- What the shell says in the end. -/
def farewell : List String := ["", Style.paint .brightCyan "Goodbye! 👋", ""]

/-- The version of the program. -/
def versionLines : List String :=
  ["", Style.boldPaint .brightCyan programName ++ ": " ++ Style.paint .yellow version, ""]

/-- A line of help: a term in a colour and what it means. -/
def helpLine (colour : Colour) (term meaning : String) : String :=
  "  " ++ Style.paint colour (Style.left 18 term) ++ " " ++ Style.dimmed meaning

/-- The keys that the shell knows. -/
def keys : List (String × String) :=
  [("Ctrl+C", "Cancel current input"), ("Ctrl+D", "Exit REPL"),
    ("Tab", "Complete a keyword name"), ("↑/↓", "Navigate history")]

/-- Items in rows of a given length.  `fuel` is at least the number of items. -/
def rows {α : Type} (length : Nat) : (fuel : Nat) → List α → List (List α)
  | 0, _ => []
  | _ + 1, [] => []
  | fuel + 1, item :: rest =>
    (item :: rest).take length :: rows length fuel ((item :: rest).drop length)

/-- A line of keywords. -/
def keywordLine (row : List Keyword) : String :=
  "  " ++ " ".intercalate (row.map fun keyword =>
    keyword.text ++ " " ++ Style.dimmed (Style.left 8 keyword.name))

/-- The help of the shell. -/
def help : List String :=
  let title (text : String) : List String := ["", Style.boldPaint .white text, ""]
  title "REPL Commands:" ++
    Command.all.map (fun command => helpLine .cyan command.form command.summary) ++
    title "Keyboard Shortcuts:" ++
    keys.map (fun (key, meaning) => helpLine .yellow key meaning) ++
    title "Keywords:" ++
    (rows 6 Keyword.all.length Keyword.all).map keywordLine ++ [""]

/-- A line about an error, with what kind of error it is set off. -/
def errorLine (message : String) : String :=
  match message.toList with
  | '[' :: rest =>
    match rest.dropWhile (· ≠ ']') with
    | ']' :: after =>
      let kind := '[' :: rest.takeWhile (· ≠ ']') ++ [']']
      Style.boldPaint .red (String.ofList kind) ++ String.ofList after
    | _ => Style.paint .red message
  | _ => Style.paint .red message

/-- The line about a command that lacks its file. -/
def missingFile (command : String) : String :=
  Style.boldPaint .red "Error" ++ ": " ++ Style.paint .cyan command ++ " " ++
    Style.dimmed "requires a file path"

end Shell
end Pictogram
