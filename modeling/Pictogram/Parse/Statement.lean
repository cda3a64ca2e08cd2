import Pictogram.Parse.Expression
import Pictogram.Token.Scan

/-!
# Parsing statements and programs

A statement is told by its first token.  A program is read up to the first
end of the input; a token list without one ends where its last token stands.
-/

namespace Pictogram
namespace Parse

/-- The stop that ends a statement, after the part that comes last in it. -/
def expectStop
    {α : Type}
    (construct : Construct)
    (after : Part)
    {tokens : List Token}
    (progress : Progress α tokens) : Outcome α tokens := do
  let stop ← expect construct .stop (.missing .stop after) progress.rest
  return progress.follow stop progress.value

/-- A print statement, after its symbol. -/
def printStatement (word : Token) (rest : List Token) : Outcome Statement (word :: rest) := do
  let argument ← expression .printStatement rest
  let ended ← expectStop .printStatement .printedValue argument
  return (Progress.take () word rest).follow ended (.print ended.value word.position)

/-- A declaration, after its symbol. -/
def declaration (word : Token) (rest : List Token) : Outcome Statement (word :: rest) := do
  let id ← expectName .declaration .declareWord rest
  if (current id.rest).kind = .assign then
    let assign ← expect .declaration .assign (.missing .assign .variableName) id.rest
    let init ← expression .declaration assign.rest
    let ended ← expectStop .declaration .initializer init
    let announced := (Progress.take () word rest).follow id ()
    return announced.follow (assign.follow ended ()) (.declare id.value (some ended.value))
  else
    let ended ← expectStop .declaration .variableName id
    return (Progress.take () word rest).follow ended (.declare id.value none)

/-- An expression for its effect. -/
def expressionStatement (tokens : List Token) : Outcome Statement tokens := do
  let value ← expression .expressionStatement tokens
  let ended ← expectStop .expressionStatement .expression value
  return ended.map .evaluate

/-- The start of a block, after the part that comes before it. -/
def expectBlock (construct : Construct) (after : Part) (tokens : List Token) :
    Outcome Token tokens :=
  expect construct .blockOpen (fun _ => .missingBlock after) tokens

mutual

/-- A statement. -/
def statement (tokens : List Token) : Outcome Statement tokens :=
  match tokens with
  | ⟨.printWord, span, position⟩ :: rest => printStatement ⟨.printWord, span, position⟩ rest
  | ⟨.declareWord, span, position⟩ :: rest => declaration ⟨.declareWord, span, position⟩ rest
  | ⟨.ifWord, span, position⟩ :: rest => do
    let test ← expression .ifStatement rest
    let body ← block .ifStatement .condition test.rest
    let begun := (Progress.take () ⟨.ifWord, span, position⟩ rest).follow (test.follow body ()) ()
    let clauses ← elseIfs (begun.map fun _ => #[])
    let alternate ← elseBody clauses
    return alternate.map
      (.conditional test.value body.value clauses.value.toList ·)
  | ⟨.forWord, span, position⟩ :: rest => do
    let counter ← expectName .forStatement .forWord rest
    let within ← expect .forStatement .inWord (.missing .inWord .loopVariable) counter.rest
    let start ← expression .forStatement within.rest
    let upTo ← expect .forStatement .toWord (.missing .toWord .startValue) start.rest
    let stop ← expression .forStatement upTo.rest
    let announced := counter.follow (within.follow (start.follow (upTo.follow stop ()) ()) ()) ()
    let body ← block .forStatement .endValue stop.rest
    return (Progress.take () ⟨.forWord, span, position⟩ rest).follow
      (announced.follow body ()) (.count counter.value start.value stop.value body.value)
  | ⟨.whileWord, span, position⟩ :: rest => do
    let test ← expression .whileStatement rest
    let body ← block .whileStatement .condition test.rest
    return (Progress.take () ⟨.whileWord, span, position⟩ rest).follow
      (test.follow body ()) (.loop test.value body.value)
  | tokens => expressionStatement tokens
termination_by (tokens.length, 0)
decreasing_by
  · have := test.shorter
    exact Prod.Lex.left _ _ (by simp only [List.length_cons]; omega)
  · have := test.shorter
    have := body.shorter
    exact Prod.Lex.left _ _ (by
      simp only [Progress.map, Progress.follow, List.length_cons]; omega)
  · have := clauses.shorter
    exact Prod.Lex.left _ _ this
  · have := counter.shorter
    have := within.shorter
    have := start.shorter
    have := upTo.shorter
    have := stop.shorter
    exact Prod.Lex.left _ _ (by simp only [List.length_cons]; omega)
  · have := test.shorter
    exact Prod.Lex.left _ _ (by simp only [List.length_cons]; omega)

/-- The further clauses of a conditional, after those in `done`. -/
def elseIfs {tokens : List Token} (done : Progress (Array Clause) tokens) :
    Outcome (Array Clause) tokens :=
  match equal : done.rest with
  | ⟨.elseIfWord, span, position⟩ :: rest => do
    let test ← expression .ifStatement rest
    let body ← block .ifStatement .elseIfCondition test.rest
    elseIfs ⟨done.value.push (.mk test.value body.value), body.rest, by
      have := done.shorter
      have := test.shorter
      have := body.shorter
      simp only [equal, List.length_cons] at *
      omega⟩
  | _ => .ok done
termination_by (done.rest.length, 0)
decreasing_by
  · have := test.shorter
    exact Prod.Lex.left _ _ (by simp only [equal, List.length_cons]; omega)
  · have := test.shorter
    have := body.shorter
    exact Prod.Lex.left _ _ (by simp only [equal, List.length_cons]; omega)

/-- The alternate of a conditional, empty if there is none. -/
def elseBody {tokens : List Token} (done : Progress (Array Clause) tokens) :
    Outcome (List Statement) tokens :=
  match equal : done.rest with
  | ⟨.elseWord, span, position⟩ :: rest => do
    let body ← block .ifStatement .elseWord rest
    return ⟨body.value, body.rest, by
      have := done.shorter
      have := body.shorter
      simp only [equal, List.length_cons] at *
      omega⟩
  | _ => .ok (done.map fun _ => [])
termination_by (done.rest.length, 0)
decreasing_by exact Prod.Lex.left _ _ (by simp [equal])

/-- A block. -/
def block (construct : Construct) (after : Part) (tokens : List Token) :
    Outcome (List Statement) tokens := do
  let opened ← expectBlock construct after tokens
  statements construct (opened.map fun _ => #[])
termination_by (tokens.length, 0)
decreasing_by exact Prod.Lex.left _ _ opened.shorter

/-- The statements of a block up to its end, after those in `done`. -/
def statements
    (construct : Construct)
    {tokens : List Token}
    (done : Progress (Array Statement) tokens) : Outcome (List Statement) tokens :=
  match equal : done.rest with
  | ⟨.blockClose, span, position⟩ :: rest =>
    .ok ⟨done.value.toList, rest, by
      have := done.shorter
      simp only [equal, List.length_cons] at this
      omega⟩
  | ⟨.endOfInput, _, _⟩ :: _ | [] => fail construct .unclosedBlock done.rest
  | token :: rest => do
    let next ← statement (token :: rest)
    statements construct ⟨done.value.push next.value, next.rest, by
      have := done.shorter
      have := next.shorter
      simp only [equal, List.length_cons] at *
      omega⟩
termination_by (done.rest.length, 1)
decreasing_by
  · rw [equal]
    exact Prod.Lex.right _ Nat.zero_lt_one
  · have := next.shorter
    exact Prod.Lex.left _ _ (by simp only [equal, List.length_cons] at *; omega)

end

/-- The statements up to the end of the input, after those in `done`, and the
tokens from the end of the input on. -/
def program (done : Array Statement) (tokens : List Token) :
    Except Failure (Program × List Token) :=
  if (current tokens).kind = .endOfInput then .ok (done.toList, tokens)
  else do
    let next ← statement tokens
    program (done.push next.value) next.rest
termination_by tokens.length
decreasing_by exact next.shorter

/-- The tokens with an end of the input after the last of them. -/
def closed (tokens : List Token) : List Token :=
  match tokens.getLast? with
  | none => []
  | some last => tokens ++ [.endOfInput last.span.stop last.position]

end Parse

/-- The program that a token list spells. -/
def parseTokens (tokens : List Token) : Except Parse.Error Program :=
  match Parse.program #[] (Parse.closed tokens) with
  | .ok (program, _) => .ok program
  | .error failure => .error failure.error

/-- The program that a source text spells. -/
def parse (source : String) : Except Parse.Error Program :=
  parseTokens (tokenize source)

end Pictogram
