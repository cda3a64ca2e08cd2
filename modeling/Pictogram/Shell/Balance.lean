import Pictogram.Symbol

/-!
# Whether an input is complete

The shell reads on while a block or a string is open.  The check goes through
the characters of the input and counts the blocks that are open; strings and
comments are passed over.  A block end without a start is left to the parser.
-/

namespace Pictogram
namespace Shell

/-- The first character of a symbol. -/
def lead (symbol : Cluster) : Char := symbol.headD '\x00'

/-- What the check is inside of. -/
inductive Region where
  | code
  | string
  | comment
  deriving DecidableEq, Repr

/-- Whether an input is complete, from inside a region with so many blocks
open. -/
def closes : Region → (blocks : Nat) → List Char → Bool
  | region, blocks, [] => blocks = 0 && region ≠ .string
  | .comment, blocks, character :: rest =>
    closes (if character = '\n' then .code else .comment) blocks rest
  | .string, blocks, character :: rest =>
    closes (if character = lead Symbol.speech then .code else .string) blocks rest
  | .code, blocks, character :: rest =>
    if character = lead Symbol.speech then closes .string blocks rest
    else if character = lead Symbol.sign then closes .comment blocks rest
    else if character = lead Symbol.soon then closes .code (blocks + 1) rest
    else if character = lead Symbol.finish then
      match blocks with
      | 0 => true
      | blocks + 1 => closes .code blocks rest
    else closes .code blocks rest

/-- Whether an input is complete. -/
def isBalanced (input : String) : Bool := closes .code 0 input.toList

end Shell
end Pictogram
