import Pictogram.Shell.Keyword
import Pictogram.Style
import Pictogram.Token.Scan
import Pictogram.Value

/-!
# Coloured lines

The shell colours a line token by token, and what is between tokens is dimmed.
-/

namespace Pictogram
namespace Shell

/-- The text of a token in its colour. -/
def colouredToken (kind : Token.Kind) (text : String) : String :=
  match kind with
  | .ifWord | .elseIfWord | .elseWord | .forWord | .inWord | .toWord | .whileWord | .printWord
  | .declareWord => Style.boldPaint .magenta text
  | .number _ | .trueLiteral | .falseLiteral | .nullLiteral => Style.paint .yellow text
  | .string _ => Style.paint .green text
  | .identifier _ => text
  | .blockOpen | .blockClose | .leftParen | .rightParen => Style.paint .brightBlue text
  | .stop => Style.dimmed text
  | .endOfInput => ""
  | _ => Style.paint .cyan text

/-- The tokens of a source from a byte offset on, in colours. -/
def colouredTokens (source : String) : (offset : Nat) → List Token → String
  | _, [] => ""
  | offset, token :: rest =>
    let gap := (Span.mk offset token.span.start).slice source
    let dimmed := if gap.isEmpty then "" else Style.dimmed gap
    dimmed ++ colouredToken token.kind (token.span.slice source) ++
      colouredTokens source token.span.stop rest

/-- A line in colours. -/
def highlight (line : String) : String :=
  if isCommandLine line.toList then Style.paint .magenta line
  else colouredTokens line 0 (tokenize line)

/-- A value as the shell shows it. -/
def shownValue : Value → String
  | .null => Cluster.join [Symbol.dottedFace]
  | .string text =>
    let mark := Cluster.join [Symbol.speech]
    Style.paint .green (mark ++ text ++ mark)
  | value => Style.paint .yellow value.describe

end Shell
end Pictogram
