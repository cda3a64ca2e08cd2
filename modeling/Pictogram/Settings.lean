import Pictogram.Compile.Options
import Pictogram.Toml

/-!
# Settings

Settings are read from a document with a table for compilation and one for the
shell.  What is not given has a default; a name that is not known is refused.
A table may also be given as an array of its values in order.
-/

namespace Pictogram

/-- How classes are named and where they go. -/
structure CompileSettings where
  /-- The name of the class. -/
  className : String
  /-- The name of the source file that the class states. -/
  sourceFile : Option String
  /-- The directory of class files. -/
  outputDirectory : Path
  deriving Repr

/-- How the shell behaves. -/
structure ShellSettings where
  /-- The number of inputs remembered. -/
  historySize : Nat
  /-- Whether to greet. -/
  banner : Bool
  deriving DecidableEq, Repr

/-- Settings. -/
structure Settings where
  /-- How classes are named and where they go. -/
  compile : CompileSettings
  /-- How the shell behaves. -/
  shell : ShellSettings
  deriving Repr

namespace CompileSettings

/-- What is not given. -/
def default : CompileSettings := ⟨Compile.Options.defaultClassName, none, ⟨"."⟩⟩

/-- Whether two settings mean the same. -/
def same (first second : CompileSettings) : Bool :=
  first.className = second.className && first.sourceFile = second.sourceFile &&
    first.outputDirectory.same second.outputDirectory

/-- The options of a class, with a name that replaces the configured one.  A
configured source file belongs to the configured class only. -/
def options (settings : CompileSettings) : Option String → Compile.Options
  | none => ⟨settings.className, settings.sourceFile⟩
  | some className => .ofClassName className

/-- The names of the values, in order. -/
def names : List String := ["class_name", "source_file", "output_dir"]

/-- The settings with a named value. -/
def set (settings : CompileSettings) (name : String) (value : Toml.Value) :
    Option CompileSettings :=
  match name, value with
  | "class_name", .string text => some { settings with className := text }
  | "source_file", .string text => some { settings with sourceFile := some text }
  | "output_dir", .string text => some { settings with outputDirectory := ⟨text⟩ }
  | _, _ => none

end CompileSettings

namespace ShellSettings

/-- What is not given. -/
def default : ShellSettings := ⟨1000, true⟩

/-- The names of the values, in order. -/
def names : List String := ["history_size", "banner"]

/-- The settings with a named value. -/
def set (settings : ShellSettings) (name : String) (value : Toml.Value) : Option ShellSettings :=
  match name, value with
  | "history_size", .integer (.ofNat size) => some { settings with historySize := size }
  | "banner", .boolean shown => some { settings with banner := shown }
  | _, _ => none

end ShellSettings

namespace Settings

/-- What is not given. -/
def default : Settings := ⟨.default, .default⟩

/-- Whether two settings mean the same. -/
def same (first second : Settings) : Bool :=
  first.compile.same second.compile && first.shell = second.shell

/-- Named values, from a table or from an array of values in order. -/
def pairs (names : List String) : Toml.Value → Option (List (String × Toml.Value))
  | .table entries => some entries
  | .array items => some (names.zip items)
  | _ => none

/-- The settings with a named table. -/
def set (settings : Settings) (name : String) (value : Toml.Value) : Option Settings := do
  match name with
  | "compile" =>
    let found ← pairs CompileSettings.names value
    let compile ← found.foldlM (fun compile (name, value) => compile.set name value)
      CompileSettings.default
    return { settings with compile }
  | "repl" =>
    let found ← pairs ShellSettings.names value
    let shell ← found.foldlM (fun shell (name, value) => shell.set name value)
      ShellSettings.default
    return { settings with shell }
  | _ => none

/-- The settings that a document gives; nothing if it gives none. -/
def read (text : String) : Option Settings := do
  let entries ← Toml.read text
  entries.foldlM (fun settings (name, value) => settings.set name value) default

/-- The name of the file that holds settings. -/
def fileName : String := "emojin.toml"

end Settings

end Pictogram
