import Pictogram.Text.Cluster
import Pictogram.Text.Blank

/-!
# The symbols of the language

Every symbol is one grapheme cluster.  Some carry the variation selector
`U+FE0F` or the keycap `U+20E3`; the same picture without it is another
cluster, and no symbol.
-/

namespace Pictogram
namespace Symbol

/-- The keycap of a decimal digit. -/
def keycap (digit : Char) : Cluster := [digit, '\uFE0F', '\u20E3']

/-- The decimal point. -/
def decimalPoint : Cluster := ['.']

/-- Addition. -/
def plus : Cluster := ['➕']

/-- Subtraction and negation. -/
def minus : Cluster := ['➖']

/-- Multiplication. -/
def times : Cluster := ['✖', '\uFE0F']

/-- Division. -/
def divide : Cluster := ['➗']

/-- Remainder. -/
def bucket : Cluster := ['🪣']

/-- Disjunction. -/
def dizzy : Cluster := ['💫']

/-- Conjunction. -/
def hugging : Cluster := ['🫂']

/-- Equality. -/
def balance : Cluster := ['⚖', '\uFE0F']

/-- Start of a group. -/
def leftParen : Cluster := ['(']

/-- End of a group. -/
def rightParen : Cluster := [')']

/-- Both ends of a string. -/
def speech : Cluster := ['💬']

/-- Start of a comment, which runs through the end of the line. -/
def sign : Cluster := ['🪧']

/-- Start of a block. -/
def soon : Cluster := ['🔜']

/-- End of a block. -/
def finish : Cluster := ['🔚']

/-- The value true. -/
def check : Cluster := ['✅']

/-- The value false. -/
def cross : Cluster := ['❌']

/-- The value null. -/
def dottedFace : Cluster := ['🫥']

/-- If. -/
def thinking : Cluster := ['🤔']

/-- Else if. -/
def monocle : Cluster := ['🧐']

/-- Else. -/
def frowning : Cluster := ['☹', '\uFE0F']

/-- Print. -/
def loudspeaker : Cluster := ['📢']

/-- For. -/
def recycle : Cluster := ['♻', '\uFE0F']

/-- Between the bounds of a for. -/
def curl : Cluster := ['➰']

/-- Between the variable and the bounds of a for. -/
def cyclone : Cluster := ['🌀']

/-- While. -/
def repeating : Cluster := ['🔁']

/-- Greater than. -/
def leftHand : Cluster := ['👈']

/-- Less than. -/
def rightHand : Cluster := ['👉']

/-- Declaration. -/
def tag : Cluster := ['🔖']

/-- Assignment. -/
def finger : Cluster := ['🫵']

/-- End of a statement. -/
def stop : Cluster := ['⛔', '\uFE0F']

/-- The decimal digit that a keycap shows. -/
def digit? : Cluster → Option Char
  | [digit, '\uFE0F', '\u20E3'] => if digit.isDigit then some digit else none
  | _ => none

/-- The symbols that cannot stand in an identifier, besides the keycaps. -/
def reserved : List Cluster :=
  [decimalPoint, plus, minus, times, divide, bucket, dizzy, hugging, balance, leftParen,
    rightParen, speech, sign, soon, finish, check, cross, dottedFace, thinking, monocle, frowning,
    loudspeaker, recycle, curl, cyclone, repeating, leftHand, rightHand, tag, finger, stop]

/-- Whether the cluster is a symbol, so that it cannot stand in an identifier. -/
def isReserved (cluster : Cluster) : Bool :=
  reserved.contains cluster || (digit? cluster).isSome

/-- Whether the cluster is blank throughout, as a line end is. -/
def isBlank (cluster : Cluster) : Bool :=
  !cluster.isEmpty && cluster.all Text.isBlank

end Symbol

/-- The characters of a run of clusters, as one text. -/
def Cluster.join (run : List Cluster) : String :=
  String.ofList run.flatten

end Pictogram
