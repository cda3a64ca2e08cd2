import Pictogram.Shell

/-!
# Input that is not typed

A shell that does not read from a terminal takes its input line by line.  Lines
are added to an input until it is complete.
-/

namespace Pictogram
namespace Shell

/-- The lines of a text, each with its line end; `current` is the line so far,
the last character first. -/
def linesFrom (current : List Char) : List Char → List (List Char)
  | [] => if current.isEmpty then [] else [current.reverse]
  | '\n' :: rest => ('\n' :: current).reverse :: linesFrom [] rest
  | character :: rest => linesFrom (character :: current) rest

/-- The lines of a text, each with its line end. -/
def linesOf (text : List Char) : List (List Char) := linesFrom [] text

/-- A text without the line end that it ends in, and that line end. -/
def cutLineEnd (text : List Char) : List Char × List Char :=
  match text.reverse with
  | '\n' :: '\r' :: rest => (rest.reverse, ['\r', '\n'])
  | '\n' :: rest => (rest.reverse, ['\n'])
  | _ => (text, [])

/-- A text in which each backspace has taken the cluster before it away. -/
def takeBack (text : List Char) : List Char :=
  let kept := (Text.clusters text).foldl
    (fun (kept : List Cluster) cluster =>
      if cluster = ['\x08'] then kept.tail else cluster :: kept) []
  kept.reverse.flatten

/-- An input after another line. -/
inductive Input where
  /-- More is needed. -/
  | partly (text : List Char)
  /-- The input is complete. -/
  | complete (text : String)

/-- Adds a line to an input. -/
def addLine (pending line : List Char) : Input :=
  let (cut, lineEnd) := cutLineEnd (pending ++ line)
  let text := takeBack cut
  if isBalanced (String.ofList text) then .complete (String.ofList text)
  else .partly (text ++ lineEnd)

/-- The complete inputs of lines, the first of them after what is pending.  What
is pending in the end is dropped. -/
def inputsFrom (pending : List Char) : List (List Char) → List String
  | [] => []
  | line :: rest =>
    match addLine pending line with
    | .partly pending => inputsFrom pending rest
    | .complete input => input :: inputsFrom [] rest

/-- The complete inputs of a text. -/
def inputsOf (text : List Char) : List String := inputsFrom [] (linesOf text)

variable {m : Type → Type} [Monad m] [Host m]

/-- Takes inputs until the shell is left or the inputs are at their end. -/
def serve (shell : Shell) : List String → m Unit
  | [] => do
    Host.record shell.log .noTerminal
    endInput
    leave
  | input :: rest => do
    Host.record shell.log .noTerminal
    match ← shell.submit input with
    | some shell => shell.serve rest
    | none => leave

end Shell
end Pictogram
