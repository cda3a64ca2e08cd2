import Pictogram.Event
import Pictogram.Style
import Pictogram.Text.Split

/-!
# The log

A filter says which events are logged: it holds, for parts of the program, the
level that an event has to reach.  The longest name that an event's origin
begins with decides.
-/

namespace Pictogram
namespace Log

/-- A level for the events of a part of the program. -/
structure Directive where
  /-- The name of the part; the empty name stands for all. -/
  part : String
  /-- The level that events have to reach; none if nothing is logged. -/
  level : Option Level
  deriving DecidableEq, Repr

/-- Which events are logged. -/
abbrev Filter := List Directive

/-- The level that a word stands for. -/
def level? (word : String) : Option (Option Level) :=
  let word := String.ofList (word.toList.map Char.toLower)
  match word with
  | "off" | "0" => some none
  | "error" | "1" => some (some .error)
  | "warn" | "2" => some (some .warn)
  | "info" | "3" => some (some .info)
  | "debug" | "4" => some (some .debug)
  | "trace" | "5" => some (some .trace)
  | _ => none

/-- Whether a character may stand in the name of a part. -/
def isNameCharacter (character : Char) : Bool :=
  character.isAlphanum || character = '_' || character = '-' || character = ':'

namespace Directive

/-- The directive that a text spells: a level, a part, or both. -/
def read (text : List Char) : Option Directive :=
  match (Text.split '=' text).map String.ofList with
  | [word] =>
    match level? word with
    | some level => some ⟨"", level⟩
    | none => if word.toList.all isNameCharacter then some ⟨word, some .trace⟩ else none
  | [part, word] =>
    if part.toList.all isNameCharacter then (level? word).map fun level => ⟨part, level⟩ else none
  | _ => none

end Directive

namespace Filter

/-- The filter that logs everything from a level on. -/
def atLeast (level : Level) : Filter := [⟨"", some level⟩]

/-- The filter that a text spells: directives between commas. -/
def read (text : String) : Option Filter :=
  ((Text.split ',' text.toList).filter (!·.isEmpty)).mapM Directive.read

/-- The filter of a run: what the variable says, or else what matters, and more
if so wished. -/
def choose (setting? : Option String) (verbose : Bool) : Filter :=
  ((setting?.bind read).getD (.atLeast (if verbose then .debug else .warn)))

/-- The level that the events of a part have to reach. -/
def level? (filter : Filter) (origin : String) : Option Level :=
  let fitting := filter.filter fun directive => directive.part.toList.isPrefixOf origin.toList
  let best := fitting.foldl (fun best directive =>
    match best with
    | none => some directive
    | some other => if other.part.length ≤ directive.part.length then some directive else best)
    (none : Option Directive)
  best.bind Directive.level

/-- Whether an event is logged. -/
def admits (filter : Filter) (event : Event) : Bool :=
  match filter.level? event.origin with
  | none => false
  | some level => level.rank ≤ event.level.rank

end Filter

/-- The number that selects the colour of a level. -/
def levelCode : Level → Nat
  | .trace => 35
  | .debug => 34
  | .info => 32
  | .warn => 33
  | .error => 31

/-- The name of a level in its colour. -/
def shownLevel (level : Level) : String :=
  Style.select (levelCode level) ++ Style.right 5 level.label ++ Style.select 0

/-- A named value. -/
def shownField (name value : String) : String :=
  " " ++ Style.select 3 ++ name ++ Style.select 0 ++ Style.dimmed "=" ++ value

/-- The line for an event at a time. -/
def line (time : String) (event : Event) : String :=
  time ++ " " ++ shownLevel event.level ++ " " ++ event.message ++
    String.join (event.fields.map fun (name, value) => shownField name value)

end Log
end Pictogram
