import Pictogram.Syntax
import Pictogram.Parse.Number
import Pictogram.Parse.Progress

/-!
# Parsing expressions

An assignment is a name followed by the assignment symbol; everything else
climbs the ladder of binary operators, from the loosest to the tightest, each
of them grouping to the left, then negation, then single values and groups.
-/

namespace Pictogram
namespace Parse

/-- Operators that bind equally tight. -/
abbrev Level := List BinaryOperator

/-- The levels of binary operators, the loosest first. -/
def ladder : List Level :=
  [[.or], [.and], [.equal], [.lessThan, .lessOrEqual, .greaterThan, .greaterOrEqual],
    [.add, .subtract], [.multiply, .divide, .modulo]]

/-- The operator of the level that a token stands for. -/
def Level.operator? (level : Level) (kind : Token.Kind) : Option BinaryOperator :=
  level.find? fun operator => operator.token = kind

/-- The value that a single token stands for. -/
def atom? (kind : Token.Kind) (position : Position) : Option Expression :=
  match kind with
  | .number text => some (.literal (.number (numberValue text)) position)
  | .string text => some (.literal (.string text) position)
  | .trueLiteral => some (.literal (.boolean true) position)
  | .falseLiteral => some (.literal (.boolean false) position)
  | .nullLiteral => some (.literal .null position)
  | .identifier name => some (.name ⟨name, position⟩)
  | _ => none

/-- A single value; no other may follow it at once. -/
def single (construct : Construct) (token : Token) (rest : List Token) :
    Outcome Expression (token :: rest) :=
  match atom? token.kind token.position with
  | none => fail construct (.missingValue token.kind) (token :: rest)
  | some value =>
    let next := (current rest).kind
    if next.startsLiteral then fail construct (.strayLiteral next) rest
    else .ok (.take value token rest)

mutual

/-- An expression. -/
def expression (construct : Construct) (tokens : List Token) : Outcome Expression tokens :=
  match tokens with
  | ⟨.identifier name, span, position⟩ :: ⟨.assign, span', position'⟩ :: rest => do
    let value ← expression construct rest
    return ⟨.assign ⟨name, position⟩ value.value, value.rest, by
      have := value.shorter
      simp only [List.length_cons]
      omega⟩
  | tokens => binary construct ladder tokens
termination_by (tokens.length, ladder.length + 3)

/-- An expression of operators of the given levels. -/
def binary (construct : Construct) (levels : List Level) (tokens : List Token) :
    Outcome Expression tokens :=
  match levels with
  | [] => unary construct tokens
  | level :: tighter => do
    let first ← binary construct tighter tokens
    operations construct level tighter first
termination_by (tokens.length, levels.length + 2)
decreasing_by
  · exact Prod.Lex.right _ (by simp)
  · exact Prod.Lex.right _ (by simp)
  · exact Prod.Lex.left _ _ first.shorter

/-- The operations of one level that follow their first operand. -/
def operations
    (construct : Construct)
    (level : Level)
    (tighter : List Level)
    {tokens : List Token}
    (left : Progress Expression tokens) : Outcome Expression tokens :=
  match equal : left.rest with
  | [] => .ok left
  | token :: rest =>
    match level.operator? token.kind with
    | none => .ok left
    | some operator => do
      let right ← binary construct tighter rest
      operations construct level tighter
        ⟨.binary operator left.value right.value token.position, right.rest, by
          have := left.shorter
          have := right.shorter
          simp only [equal, List.length_cons] at *
          omega⟩
termination_by (left.rest.length, tighter.length + 3)
decreasing_by
  · apply Prod.Lex.left
    simp [equal]
  · apply Prod.Lex.left
    have := right.shorter
    simp only [equal, List.length_cons]
    omega

/-- A value with any number of negations. -/
def unary (construct : Construct) (tokens : List Token) : Outcome Expression tokens :=
  match tokens with
  | ⟨.minus, span, position⟩ :: rest => do
    let argument ← unary construct rest
    return ⟨.negate argument.value position, argument.rest, by
      have := argument.shorter
      simp only [List.length_cons]
      omega⟩
  | tokens => primary construct tokens
termination_by (tokens.length, 1)

/-- A single value or a group. -/
def primary (construct : Construct) (tokens : List Token) : Outcome Expression tokens :=
  match tokens with
  | ⟨.leftParen, span, position⟩ :: rest => do
    let inner ← expression construct rest
    let close ← expect construct .rightParen (fun _ => .unclosedParenthesis) inner.rest
    return ⟨inner.value, close.rest, by
      have := inner.shorter
      have := close.shorter
      simp only [List.length_cons]
      omega⟩
  | token :: rest => single construct token rest
  | [] => fail construct (.missingValue (current []).kind) []
termination_by (tokens.length, 0)

end

end Parse
end Pictogram
