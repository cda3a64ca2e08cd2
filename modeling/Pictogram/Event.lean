/-!
# Events

What the parts of the program tell about their work.  An event has a level, a
part of the program that it comes from, a message, and named values.
-/

namespace Pictogram

/-- How much an event matters. -/
inductive Level where
  | trace
  | debug
  | info
  | warn
  | error
  deriving DecidableEq, Repr

namespace Level

/-- The rank of a level; what matters more ranks higher. -/
def rank : Level → Nat
  | .trace => 0
  | .debug => 1
  | .info => 2
  | .warn => 3
  | .error => 4

/-- The name of a level. -/
def label : Level → String
  | .trace => "TRACE"
  | .debug => "DEBUG"
  | .info => "INFO"
  | .warn => "WARN"
  | .error => "ERROR"

end Level

/-- Something that happened. -/
inductive Event where
  /-- No settings were found. -/
  | noSettings
  /-- Settings were read from a file. -/
  | loadedSettings (path : String)
  /-- A file is about to be run. -/
  | runningFile (path : String)
  /-- A source was cut into tokens. -/
  | tokenized (count : Nat)
  /-- A program was parsed. -/
  | parsed (statements : Nat)
  /-- A program is about to be run. -/
  | interpreting (statements : Nat)
  /-- The body of a class was generated. -/
  | compiledMain (size maxStack maxLocals : Nat)
  /-- A class was made into bytes. -/
  | wroteClass (name : String) (pool size : Nat)
  /-- A run ended with an error. -/
  | runFailed (message : String)
  /-- The shell does not read from a terminal. -/
  | noTerminal
  deriving DecidableEq, Repr

namespace Event

/-- The level of an event. -/
def level : Event → Level
  | .tokenized _ | .parsed _ => .trace
  | _ => .debug

/-- The part of the program that an event comes from. -/
def origin : Event → String
  | .noSettings | .loadedSettings _ => "emojin"
  | .noTerminal => "line_editor"
  | _ => "emojin_engine"

/-- The message of an event. -/
def message : Event → String
  | .noSettings => "no emojin.toml found, using defaults"
  | .loadedSettings _ => "loaded configuration"
  | .runningFile _ => "running file"
  | .tokenized _ => "tokenized source"
  | .parsed _ => "parsed program"
  | .interpreting _ => "interpreting"
  | .compiledMain .. => "compiled main"
  | .wroteClass .. => "wrote class file"
  | .runFailed _ => "run failed"
  | .noTerminal => "stdin is not a tty"

/-- The named values of an event. -/
def fields : Event → List (String × String)
  | .noSettings | .noTerminal => []
  | .loadedSettings path => [("path", path)]
  | .runningFile path => [("path", path)]
  | .tokenized count => [("count", toString count)]
  | .parsed statements => [("statements", toString statements)]
  | .interpreting statements => [("statements", toString statements)]
  | .compiledMain size maxStack maxLocals =>
    [("size", toString size), ("max_stack", toString maxStack), ("max_locals", toString maxLocals)]
  | .wroteClass name pool size =>
    [("class", name), ("pool", toString pool), ("size", toString size)]
  | .runFailed message => [("error", message)]

end Event

end Pictogram
