import Pictogram.Text.Blank
import Pictogram.Token.Kind

/-!
# Names of symbols

Every symbol has a name in plain letters, from which the shell completes it.
-/

namespace Pictogram
namespace Shell

/-- A symbol with its name. -/
structure Keyword where
  /-- The name in plain letters. -/
  name : String
  /-- The clusters of the symbol. -/
  symbol : List Cluster
  deriving DecidableEq, Repr

namespace Keyword

/-- All keywords, in the order in which they are offered. -/
def all : List Keyword :=
  [⟨"print", [Symbol.loudspeaker]⟩, ⟨"declare", [Symbol.tag]⟩, ⟨"assign", [Symbol.finger]⟩,
    ⟨"stop", [Symbol.stop]⟩, ⟨"if", [Symbol.thinking]⟩, ⟨"elif", [Symbol.monocle]⟩,
    ⟨"else", [Symbol.frowning]⟩, ⟨"for", [Symbol.recycle]⟩, ⟨"in", [Symbol.cyclone]⟩,
    ⟨"to", [Symbol.curl]⟩, ⟨"while", [Symbol.repeating]⟩, ⟨"open", [Symbol.soon]⟩,
    ⟨"close", [Symbol.finish]⟩, ⟨"true", [Symbol.check]⟩, ⟨"false", [Symbol.cross]⟩,
    ⟨"null", [Symbol.dottedFace]⟩, ⟨"string", [Symbol.speech]⟩, ⟨"comment", [Symbol.sign]⟩,
    ⟨"plus", [Symbol.plus]⟩, ⟨"minus", [Symbol.minus]⟩, ⟨"times", [Symbol.times]⟩,
    ⟨"divide", [Symbol.divide]⟩, ⟨"mod", [Symbol.bucket]⟩, ⟨"and", [Symbol.hugging]⟩,
    ⟨"or", [Symbol.dizzy]⟩, ⟨"eq", [Symbol.balance]⟩, ⟨"lt", [Symbol.rightHand]⟩,
    ⟨"le", [Symbol.balance, Symbol.rightHand]⟩, ⟨"gt", [Symbol.leftHand]⟩,
    ⟨"ge", [Symbol.leftHand, Symbol.balance]⟩, ⟨"zero", [Symbol.keycap '0']⟩,
    ⟨"one", [Symbol.keycap '1']⟩, ⟨"two", [Symbol.keycap '2']⟩, ⟨"three", [Symbol.keycap '3']⟩,
    ⟨"four", [Symbol.keycap '4']⟩, ⟨"five", [Symbol.keycap '5']⟩, ⟨"six", [Symbol.keycap '6']⟩,
    ⟨"seven", [Symbol.keycap '7']⟩, ⟨"eight", [Symbol.keycap '8']⟩, ⟨"nine", [Symbol.keycap '9']⟩]

/-- The symbol as one text. -/
def text (keyword : Keyword) : String := Cluster.join keyword.symbol

/-- The name and the symbol, as they are offered. -/
def display (keyword : Keyword) : String := keyword.name ++ " " ++ keyword.text

/-- The keywords whose name begins with a word, in letters of either case. -/
def matching (word : List Char) : List Keyword :=
  if word.isEmpty then []
  else all.filter fun keyword => (word.map Char.toLower).isPrefixOf keyword.name.toList

end Keyword

/-- The letters that a text ends with. -/
def lastWord (text : List Char) : List Char :=
  (text.reverse.takeWhile Char.isAlpha).reverse

/-- Whether a line is meant as a command. -/
def isCommandLine (line : List Char) : Bool :=
  (Text.trimLeft line).head? = some '.'

/-- How a text before the cursor can be completed. -/
structure Completion where
  /-- The part of the text that stays. -/
  kept : List Char
  /-- The keywords that may follow it. -/
  offers : List Keyword

/-- The number of bytes that stay. -/
def Completion.start (completion : Completion) : Nat :=
  (String.ofList completion.kept).utf8ByteSize

/-- The completion of the last word of a text. -/
def completeWord (text : List Char) : Completion :=
  let word := lastWord text
  ⟨text.take (text.length - word.length), Keyword.matching word⟩

/-- The completion of a line after the text before the cursor. -/
def complete (line text : List Char) : Completion :=
  if isCommandLine line then ⟨text, []⟩ else completeWord text

end Shell
end Pictogram
