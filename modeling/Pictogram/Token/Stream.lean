import Pictogram.Token.Scan

/-!
# Tokens one at a time

A stream can always be asked for a token: past the end of its text that is the
end of the input each time.  As a sequence it gives the end of the input once
and then nothing.
-/

namespace Pictogram
namespace Token

/-- A source text being scanned. -/
structure Stream where
  /-- The whole text. -/
  source : String
  /-- What is left of it. -/
  cursor : Scan.Cursor
  /-- Whether the sequence has given the end of the input. -/
  ended : Bool

namespace Stream

/-- The stream of a text, at its start. -/
def ofText (source : String) : Stream :=
  ⟨source, .ofText source, false⟩

/-- The next token, whatever has been given before. -/
def read (stream : Stream) : Token × Stream :=
  let (token, cursor) := stream.cursor.next
  (token, { stream with cursor })

/-- The next token of the sequence. -/
def next? (stream : Stream) : Option Token × Stream :=
  if stream.ended then (none, stream)
  else
    let (token, later) := stream.read
    (some token, { later with ended := token.kind = .endOfInput })

end Stream
end Token
end Pictogram
