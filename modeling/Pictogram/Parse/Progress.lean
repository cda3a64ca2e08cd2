import Pictogram.Token
import Pictogram.Syntax
import Pictogram.Parse.Error

/-!
# Steps through a token list

Every routine of the parser takes a token list and either fails at one of its
tokens or takes at least one token off its front.  The end of the input is
never taken.
-/

namespace Pictogram
namespace Parse

/-- The token that a list starts with.  An empty list is at the end of an
empty input. -/
def current : List Token → Token
  | [] => .endOfInput 0 .origin
  | token :: _ => token

/-- A failed parse: the error, and the tokens from the offending one on. -/
structure Failure where
  /-- What went wrong. -/
  error : Error
  /-- The tokens from the offending one on. -/
  tokens : List Token

/-- What a parse of `tokens` gave, and the tokens it left. -/
structure Progress (α : Type) (tokens : List Token) where
  /-- What was read. -/
  value : α
  /-- The tokens that are left. -/
  rest : List Token
  /-- At least one token has been taken. -/
  shorter : rest.length < tokens.length

/-- A parse of `tokens` that may fail. -/
abbrev Outcome (α : Type) (tokens : List Token) := Except Failure (Progress α tokens)

/-- The failure at the first of the tokens. -/
def fail {α : Type} (construct : Construct) (fault : Fault) (tokens : List Token) :
    Except Failure α :=
  .error ⟨⟨(current tokens).position, construct, fault⟩, tokens⟩

namespace Progress

/-- The first token has been taken. -/
def take {α : Type} (value : α) (token : Token) (rest : List Token) :
    Progress α (token :: rest) :=
  ⟨value, rest, Nat.lt_succ_self _⟩

/-- One parse after another, with the value made of the two. -/
def follow
    {α β γ : Type}
    {tokens : List Token}
    (first : Progress α tokens)
    (second : Progress β first.rest)
    (value : γ) : Progress γ tokens :=
  ⟨value, second.rest, Nat.lt_trans second.shorter first.shorter⟩

/-- The same tokens taken, for another value. -/
def map
    {α β : Type}
    {tokens : List Token}
    (f : α → β)
    (progress : Progress α tokens) : Progress β tokens :=
  ⟨f progress.value, progress.rest, progress.shorter⟩

end Progress

/-- The first token, which has to be of the given kind. -/
def expect
    (construct : Construct)
    (kind : Token.Kind)
    (fault : Token.Kind → Fault) : (tokens : List Token) → Outcome Token tokens
  | [] => fail construct (fault (current []).kind) []
  | token :: rest =>
    if token.kind = kind then .ok (.take token token rest)
    else fail construct (fault token.kind) (token :: rest)

/-- The first token, which has to be a name. -/
def expectName
    (construct : Construct)
    (after : Token.Kind) : (tokens : List Token) → Outcome Identifier tokens
  | [] => fail construct (.missingName after (current []).kind) []
  | token :: rest =>
    match token.kind with
    | .identifier name => .ok (.take ⟨name, token.position⟩ token rest)
    | found => fail construct (.missingName after found) (token :: rest)

end Parse
end Pictogram
