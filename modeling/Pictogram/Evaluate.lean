import Pictogram.Evaluate.Operation
import Pictogram.Store

/-!
# Running a program

A run carries the store of variables and the lines printed so far.  It ends at
the first error, and keeps what it has stored and printed up to there.

Statements are run by recursion on the syntax.  Only a loop can go on for ever,
so each loop is given a number of rounds, and a run that needs more of them
ends exhausted.
-/

namespace Pictogram
namespace Evaluate

/-- What a run changes. -/
structure State where
  /-- The variables. -/
  store : Store
  /-- The lines printed. -/
  printed : Array String

/-- Why a run ended early. -/
inductive Halt where
  /-- Something went wrong. -/
  | error (error : Error)
  /-- A loop has used up its rounds. -/
  | exhausted

/-- A part of a run.  The state outlives an early end. -/
abbrev Run := EStateM Halt State

/-- Ends the run with an error at a position. -/
def fail {α : Type} (fault : Fault) (position : Position) : Run α :=
  throw (.error ⟨fault, some position⟩)

/-- What an operation gives. -/
def outcome {α : Type} : Except Error α → Run α
  | .ok value => pure value
  | .error error => throw (.error error)

/-- The value of a variable. -/
def lookUp (id : Identifier) : Run Value := do
  match (← get).store.get? id.name with
  | some value => return value
  | none => fail (.undeclared id.name) id.position

/-- Makes sure that a name is bound. -/
def requireBound (id : Identifier) : Run Unit := do
  unless (← get).store.contains id.name do
    fail (.undeclared id.name) id.position

/-- Makes sure that a name is not bound. -/
def requireFree (id : Identifier) : Run Unit := do
  if (← get).store.contains id.name then
    fail (.redeclared id.name) id.position

/-- Gives a bound variable another value. -/
def assign (id : Identifier) (value : Value) : Run Unit := do
  let state ← get
  match state.store.set? id.name value with
  | some store => set { state with store }
  | none => fail (.undeclared id.name) id.position

/-- Binds a name that is not bound. -/
def declare (id : Identifier) (value : Value) : Run Unit := do
  let state ← get
  match state.store.declare? id.name value with
  | some store => set { state with store }
  | none => fail (.redeclared id.name) id.position

/-- Prints a line. -/
def print (line : String) : Run Unit :=
  modify fun state => { state with printed := state.printed.push line }

/-- The value of an expression, its parts evaluated from left to right. -/
def evaluate : Expression → Run Value
  | .literal literal _ => return .ofLiteral literal
  | .name id => lookUp id
  | .negate argument position => do
    let operand ← evaluate argument
    outcome (negated operand position)
  | .binary operator left right position => do
    let left ← evaluate left
    let right ← evaluate right
    outcome (operate operator left right position)
  | .assign target expression => do
    requireBound target
    let value ← evaluate expression
    assign target value
    return value

/-- Whether a test holds. -/
def holds (test : Expression) : Run Bool :=
  return (← evaluate test).isTruthy

/-- A bound of a counted loop, which has to be a number. -/
def bound (expression : Expression) : Run Float := do
  match ← evaluate expression with
  | .number value => return value
  | other => fail (.rangeNotNumeric other.kind) expression.position

/-- The counter of a counted loop, which has to be a number still. -/
def counterValue (counter : Identifier) : Run Float := do
  match ← lookUp counter with
  | .number value => return value
  | other => fail (.rangeNotNumeric other.kind) counter.position

/-- Takes steps until one says that there is no other, at most as many as
given. -/
def rounds (step : Run Bool) : Nat → Run Unit
  | 0 => throw .exhausted
  | more + 1 => do
    if ← step then rounds step more

/-- One round of a loop with a test. -/
def whileRound (test : Expression) (body : Run Unit) : Run Bool := do
  if ← holds test then
    body
    return true
  else
    return false

/-- One round of a counted loop.  The step goes from the value that the body
leaves in the counter. -/
def countRound (counter : Identifier) (stop : Float) (body : Run Unit) : Run Bool := do
  if (← counterValue counter) < stop then
    body
    let value ← counterValue counter
    modify fun state =>
      { state with
        store := (state.store.set? counter.name (.number (value + 1.0))).getD state.store }
    return true
  else
    return false

/-- A run after which a variable is gone, however it ends. -/
def removing (name : String) (run : Run Unit) : Run Unit := fun state =>
  match run state with
  | .ok value state => .ok value { state with store := state.store.remove name }
  | .error halt state => .error halt { state with store := state.store.remove name }

mutual

/-- Runs a statement, each loop in at most `limit` rounds. -/
def execute (limit : Nat) : Statement → Run Unit
  | .print argument _ => do
    let value ← evaluate argument
    print value.describe
  | .declare id init => do
    requireFree id
    let value ← match init with
      | some expression => evaluate expression
      | none => pure .null
    declare id value
  | .conditional test body elseIfs alternate => do
    if ← holds test then executeAll limit body
    else executeClauses limit (executeAll limit alternate) elseIfs
  | .count counter start stop body => do
    let start ← bound start
    let stop ← bound stop
    declare counter (.number start)
    removing counter.name (rounds (countRound counter stop (executeAll limit body)) limit)
  | .loop test body => rounds (whileRound test (executeAll limit body)) limit
  | .evaluate expression => do
    let _ ← evaluate expression

/-- Runs the body of the first clause whose test holds, or else `otherwise`. -/
def executeClauses (limit : Nat) (otherwise : Run Unit) : List Clause → Run Unit
  | [] => otherwise
  | .mk test body :: clauses => do
    if ← holds test then executeAll limit body
    else executeClauses limit otherwise clauses

/-- Runs statements one after another. -/
def executeAll (limit : Nat) : List Statement → Run Unit
  | [] => pure ()
  | statement :: statements => do
    execute limit statement
    executeAll limit statements

end

/-- The rounds that each loop is given by default, more than any loop can take
in a lifetime. -/
def patience : Nat := 1000000000000000000

end Evaluate

/-- What a run leaves behind. -/
structure RunReport where
  /-- The variables at the end. -/
  store : Store
  /-- The lines printed, in order. -/
  lines : List String
  /-- Why the run ended early, if it did. -/
  halt : Option Evaluate.Halt

namespace Evaluate

/-- Starts a run on a store. -/
def start {α : Type} (run : Run α) (store : Store) : EStateM.Result Halt State α :=
  run ⟨store, #[]⟩

/-- Runs a program on a store. -/
def program (limit : Nat) (store : Store) (statements : Program) : RunReport :=
  match start (executeAll limit statements) store with
  | .ok _ state => ⟨state.store, state.printed.toList, none⟩
  | .error halt state => ⟨state.store, state.printed.toList, some halt⟩

end Evaluate
end Pictogram
