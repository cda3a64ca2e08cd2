import Pictogram.Symbol

/-!
# Kinds of tokens

A kind is a fixed symbol, or a number, a string or an identifier with its
text, or the end of the input.  Three tables tell of symbols: `Kind.symbol?`
says how a kind is spelled, `Kind.singles` what a cluster spells on its own, and
`Symbol.reserved` what no identifier holds.  They agree with each other.
-/

namespace Pictogram
namespace Token

/-- What a token is. -/
inductive Kind where
  /-- A number: decimal digits and points. -/
  | number (text : String)
  /-- A string, without its speech balloons. -/
  | string (text : String)
  /-- The name of a variable. -/
  | identifier (name : String)
  | trueLiteral
  | falseLiteral
  | nullLiteral
  | plus
  | minus
  | star
  | slash
  | percent
  | or
  | and
  | equal
  | lessThan
  | lessOrEqual
  | greaterThan
  | greaterOrEqual
  | assign
  | leftParen
  | rightParen
  | blockOpen
  | blockClose
  | stop
  | ifWord
  | elseIfWord
  | elseWord
  | printWord
  | declareWord
  | forWord
  | inWord
  | toWord
  | whileWord
  | endOfInput
  deriving DecidableEq, Repr, Inhabited

namespace Kind

/-- The clusters that spell a kind with a fixed symbol. -/
def symbol? : Kind → Option (List Cluster)
  | .trueLiteral => some [Symbol.check]
  | .falseLiteral => some [Symbol.cross]
  | .nullLiteral => some [Symbol.dottedFace]
  | .plus => some [Symbol.plus]
  | .minus => some [Symbol.minus]
  | .star => some [Symbol.times]
  | .slash => some [Symbol.divide]
  | .percent => some [Symbol.bucket]
  | .or => some [Symbol.dizzy]
  | .and => some [Symbol.hugging]
  | .equal => some [Symbol.balance]
  | .lessThan => some [Symbol.rightHand]
  | .lessOrEqual => some [Symbol.balance, Symbol.rightHand]
  | .greaterThan => some [Symbol.leftHand]
  | .greaterOrEqual => some [Symbol.leftHand, Symbol.balance]
  | .assign => some [Symbol.finger]
  | .leftParen => some [Symbol.leftParen]
  | .rightParen => some [Symbol.rightParen]
  | .blockOpen => some [Symbol.soon]
  | .blockClose => some [Symbol.finish]
  | .stop => some [Symbol.stop]
  | .ifWord => some [Symbol.thinking]
  | .elseIfWord => some [Symbol.monocle]
  | .elseWord => some [Symbol.frowning]
  | .printWord => some [Symbol.loudspeaker]
  | .declareWord => some [Symbol.tag]
  | .forWord => some [Symbol.recycle]
  | .inWord => some [Symbol.cyclone]
  | .toWord => some [Symbol.curl]
  | .whileWord => some [Symbol.repeating]
  | .number _ | .string _ | .identifier _ | .endOfInput => none

/-- The clusters that spell a kind on their own, with these kinds. -/
def singles : List (Cluster × Kind) :=
  [(Symbol.plus, .plus), (Symbol.minus, .minus), (Symbol.times, .star), (Symbol.divide, .slash),
    (Symbol.bucket, .percent), (Symbol.dizzy, .or), (Symbol.hugging, .and),
    (Symbol.balance, .equal), (Symbol.leftParen, .leftParen), (Symbol.rightParen, .rightParen),
    (Symbol.leftHand, .greaterThan), (Symbol.rightHand, .lessThan), (Symbol.stop, .stop),
    (Symbol.soon, .blockOpen), (Symbol.finish, .blockClose), (Symbol.check, .trueLiteral),
    (Symbol.cross, .falseLiteral), (Symbol.dottedFace, .nullLiteral), (Symbol.thinking, .ifWord),
    (Symbol.monocle, .elseIfWord), (Symbol.frowning, .elseWord), (Symbol.loudspeaker, .printWord),
    (Symbol.tag, .declareWord), (Symbol.finger, .assign), (Symbol.recycle, .forWord),
    (Symbol.curl, .toWord), (Symbol.cyclone, .inWord), (Symbol.repeating, .whileWord)]

/-- The kind that the cluster spells on its own. -/
def ofCluster? (cluster : Cluster) : Option Kind := singles.lookup cluster

/-- Whether a token of this kind is a value by itself. -/
def startsLiteral : Kind → Bool
  | .number _ | .string _ | .identifier _ => true
  | .trueLiteral | .falseLiteral | .nullLiteral => true
  | _ => false

/-- The symbol as one text. -/
def symbolText? (kind : Kind) : Option String :=
  kind.symbol?.map Cluster.join

/-- The kind as messages name it. -/
def describe : Kind → String
  | .number text => s!"number {text}"
  | .string text => s!"string {Cluster.join [Symbol.speech]}{text}{Cluster.join [Symbol.speech]}"
  | .identifier name => s!"identifier {name}"
  | kind => kind.symbolText?.getD "end of input"

/-- The name of the kind in a listing of tokens, without its text. -/
def label : Kind → String
  | .number _ => "Number"
  | .string _ => "String"
  | .identifier _ => "Identifier"
  | .trueLiteral => "True"
  | .falseLiteral => "False"
  | .nullLiteral => "Null"
  | .plus => "Plus"
  | .minus => "Minus"
  | .star => "Star"
  | .slash => "Slash"
  | .percent => "Percent"
  | .or => "Or"
  | .and => "And"
  | .equal => "Equal"
  | .lessThan => "LessThan"
  | .lessOrEqual => "LessThanEqual"
  | .greaterThan => "GreaterThan"
  | .greaterOrEqual => "GreaterThanEqual"
  | .assign => "Assign"
  | .leftParen => "LeftParen"
  | .rightParen => "RightParen"
  | .blockOpen => "BlockOpen"
  | .blockClose => "BlockClose"
  | .stop => "Stop"
  | .ifWord => "If"
  | .elseIfWord => "ElseIf"
  | .elseWord => "Else"
  | .printWord => "Print"
  | .declareWord => "Declare"
  | .forWord => "For"
  | .inWord => "In"
  | .toWord => "To"
  | .whileWord => "While"
  | .endOfInput => "Eof"

/-- The text that a number, a string or an identifier carries. -/
def text? : Kind → Option String
  | .number text | .string text | .identifier text => some text
  | _ => none

/-! ## The tables of symbols agree -/

theorem mem_singles_of_ofCluster?
    {cluster : Cluster}
    {kind : Kind}
    (found : ofCluster? cluster = some kind) :
    (cluster, kind) ∈ singles := by
  obtain ⟨before, after, split, -⟩ := List.lookup_eq_some_iff.mp found
  simp [split]

/-- A cluster spells a kind on its own just when it is the whole symbol of that kind. -/
theorem ofCluster?_eq_some_iff {cluster : Cluster} {kind : Kind} :
    ofCluster? cluster = some kind ↔ kind.symbol? = some [cluster] := by
  constructor
  · intro found
    have each : ∀ entry ∈ singles, entry.2.symbol? = some [entry.1] := by decide
    exact each _ (mem_singles_of_ofCluster? found)
  · intro isSymbol
    cases kind <;> cases isSymbol <;> rfl

end Kind
end Token

/-- The reserved clusters are the decimal point, the speech balloon, the sign, those that spell a
kind on their own, and the keycaps. -/
theorem Symbol.isReserved_iff {cluster : Cluster} :
    isReserved cluster ↔
      cluster = decimalPoint ∨ cluster = speech ∨ cluster = sign ∨
        (Token.Kind.ofCluster? cluster).isSome ∨ (digit? cluster).isSome := by
  have table : (decimalPoint :: speech :: sign :: Token.Kind.singles.map Prod.fst).Perm
      reserved := by decide
  have spells : cluster ∈ Token.Kind.singles.map Prod.fst ↔
      (Token.Kind.ofCluster? cluster).isSome := by
    simp [Token.Kind.ofCluster?, List.lookup_isSome_iff]
  rw [isReserved, Bool.or_eq_true, List.contains_iff_mem, ← table.mem_iff, List.mem_cons,
    List.mem_cons, List.mem_cons, spells, or_assoc, or_assoc, or_assoc]

end Pictogram
