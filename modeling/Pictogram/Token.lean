import Pictogram.Position
import Pictogram.Token.Kind

/-!
# Tokens

A token is a kind together with the bytes of the source that spell it and the
position of its first cluster.
-/

namespace Pictogram

/-- The bytes of a source text from `start` up to, and without, `stop`. -/
structure Span where
  /-- Offset of the first byte. -/
  start : Nat
  /-- Offset of the byte after the last. -/
  stop : Nat
  deriving DecidableEq, Repr, Inhabited

namespace Span

/-- The number of bytes. -/
def size (span : Span) : Nat := span.stop - span.start

/-- Whether the span holds no byte. -/
def isEmpty (span : Span) : Bool := span.start = span.stop

/-- The spanned part of the source. -/
def slice (span : Span) (source : String) : String :=
  String.Pos.Raw.extract source ⟨span.start⟩ ⟨span.stop⟩

end Span

/-- A unit of the source that the grammar knows. -/
structure Token where
  /-- What the token is. -/
  kind : Token.Kind
  /-- The bytes that spell it. -/
  span : Span
  /-- Where its first cluster stands. -/
  position : Position
  deriving DecidableEq, Repr, Inhabited

namespace Token

/-- The end of the input, found at a byte offset. -/
def endOfInput (offset : Nat) (position : Position) : Token :=
  ⟨.endOfInput, ⟨offset, offset⟩, position⟩

end Token

end Pictogram
