import Pictogram.Compile.Error
import Pictogram.Evaluate
import Pictogram.Parse.Error

/-!
# Failures

Whatever can keep a request from being served, with the line that reports it.
-/

namespace Pictogram

/-- Why a file cannot be used. -/
inductive FileFault where
  | notFound
  | alreadyExists
  | notDirectory
  | isDirectory
  | nameTooLong
  /-- The path holds a zero character. -/
  | zeroInPath
  /-- The bytes of the file are no text. -/
  | notText
  /-- Any other reason. -/
  | other (reason : String)
  deriving DecidableEq, Repr

/-- The fault in words. -/
def FileFault.describe : FileFault → String
  | .notFound => "No such file or directory (os error 2)"
  | .alreadyExists => "File exists (os error 17)"
  | .notDirectory => "Not a directory (os error 20)"
  | .isDirectory => "Is a directory (os error 21)"
  | .nameTooLong => "File name too long (os error 36)"
  | .zeroInPath => "file name contained an unexpected NUL byte"
  | .notText => "stream did not contain valid UTF-8"
  | .other reason => reason

/-- Why a request was not served. -/
inductive Failure where
  /-- The source is no program. -/
  | parse (error : Parse.Error)
  /-- The run ended with an error. -/
  | run (error : Evaluate.Error)
  /-- A loop of the run has used up its rounds. -/
  | exhausted
  /-- The program cannot be compiled. -/
  | compile (error : Compile.Error)
  /-- A file cannot be used. -/
  | file (fault : FileFault)
  /-- Work that was handed on did not come back. -/
  | task (reason : String)

namespace Failure

/-- The failure of a run that ended early. -/
def ofHalt : Evaluate.Halt → Failure
  | .error error => .run error
  | .exhausted => .exhausted

/-- The line that reports the failure. -/
def message : Failure → String
  | .parse error => error.message
  | .run error => error.message
  | .exhausted => "[runtime error] a loop has used up its rounds"
  | .compile error => error.message
  | .file fault => s!"File system error: {fault.describe}"
  | .task reason => s!"Task error: {reason}"

end Failure

end Pictogram
