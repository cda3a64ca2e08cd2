import Pictogram.Transcript
import Pictogram.Work

/-!
# Sessions

A session runs one source after another on the same store, and compiles under
fixed options.  A variable that one source declares is there for the next.
-/

namespace Pictogram

/-- A store that outlives single runs, and options for classes. -/
structure Session where
  /-- The variables. -/
  store : Store
  /-- How classes are named. -/
  options : Compile.Options

/-- What running a source gave. -/
structure Evaluation where
  /-- The lines printed. -/
  lines : List String
  /-- Why the source was not run to its end. -/
  failure : Option Failure
  /-- What was told on the way. -/
  events : Array Event

namespace Session

/-- A session without variables. -/
def ofOptions (options : Compile.Options) : Session := ⟨.empty, options⟩

/-- Runs a source. -/
def eval (session : Session) (source : String) : Evaluation × Session :=
  match Work.program source #[] with
  | .error failure events => (⟨[], some failure, events⟩, session)
  | .ok program events =>
    let report := Evaluate.program Evaluate.patience session.store program
    (⟨report.lines, report.halt.map .ofHalt, events.push (.interpreting program.length)⟩,
      { session with store := report.store })

/-- The bytes of the class of a source. -/
def compile (session : Session) (source : String) : Work (List UInt8) :=
  Work.classBytes session.options source

/-- The lines that list the class of a source. -/
def listing (session : Session) (source : String) : Work (List String) :=
  Work.listing session.options source

/-- Forgets all variables. -/
def reset (session : Session) : Session := { session with store := .empty }

end Session

namespace Evaluation

/-- What a run has written, its failure as one line. -/
def transcript (evaluation : Evaluation) : Transcript where
  lines := evaluation.lines.toArray
  errors := (evaluation.failure.map Failure.message).toArray

end Evaluation

/-- Runs a source without variables. -/
def interpret (source : String) : Transcript :=
  ((Session.ofOptions .default).eval source).1.transcript

/-- The bytes of a class for a source, or none with a line that says why. -/
def compileToBytes (source : String) : List UInt8 × List String :=
  match (Work.classBytes .default source).result with
  | .ok bytes => (bytes, [])
  | .error failure => ([], [failure.message])

end Pictogram
