import Pictogram.Proofs.Source.Run
import Mathlib.Logic.Relation

/-!
# The numbers that a run produces

A run produces the numbers of its literals, the numbers that operators give and those
that its counters step to.  Here it is said of all of them, from a state on, that they
have some property.  Of a part that is not reached nothing is said.
-/

namespace Pictogram
namespace Evaluate

open Pictogram.Compile (Part remaining)

/-- Something holds after a run, if it comes to its end. -/
def After {α : Type} (run : Run α) (next : α → State → Prop) (state : State) : Prop :=
  ∀ value last, run state = .ok value last → next value last

theorem After.of_ok
    {α : Type}
    {run : Run α}
    {next : α → State → Prop}
    {state last : State}
    {value : α}
    (ran : run state = .ok value last)
    (holds : next value last) :
    After run next state := by
  intro value last ranAgain
  cases ran.symm.trans ranAgain
  exact holds

/-- From the first state a loop comes to the beginning of a round in the second. -/
def ComesTo (step : Run Bool) : State → State → Prop :=
  Relation.ReflTransGen fun state next => step state = .ok true next

/-- What holds here and from the next round on holds in every round. -/
theorem ComesTo.of_step
    {step : Run Bool}
    {property : State → Prop}
    {first second : State}
    (stepped : step first = .ok true second)
    (here : property first)
    (later : ∀ state, ComesTo step second state → property state) :
    ∀ state, ComesTo step first state → property state := by
  intro state comesTo
  rcases Relation.ReflTransGen.cases_head comesTo with rfl | ⟨next, steppedAgain, comesOn⟩
  · exact here
  · cases stepped.symm.trans steppedAgain
    exact later state comesOn

/-- What holds at the beginning of the last round holds from there on. -/
theorem ComesTo.of_stop
    {step : Run Bool}
    {property : State → Prop}
    {first second : State}
    (stopped : step first = .ok false second)
    (here : property first) :
    ∀ state, ComesTo step first state → property state := by
  intro state comesTo
  rcases Relation.ReflTransGen.cases_head comesTo with rfl | ⟨next, stepped, -⟩
  · exact here
  · cases stopped.symm.trans stepped

variable (valid : Float → Prop)

/-- If the value is a number, it is valid. -/
def ValidValue : Value → Prop
  | .number value => valid value
  | _ => True

/-- All numbers that an expression produces are valid. -/
def ValidExpression : Expression → State → Prop
  | .literal literal _, _ => ValidValue valid (.ofLiteral literal)
  | .name _, _ => True
  | .negate argument position, state =>
    ValidExpression argument state ∧
      After (evaluate (.negate argument position)) (fun value _ => ValidValue valid value) state
  | .binary operator left right position, state =>
    ValidExpression left state ∧
      After (evaluate left) (fun _ => ValidExpression right) state ∧
      After (evaluate (.binary operator left right position))
        (fun value _ => ValidValue valid value) state
  | .assign _ expression, state => ValidExpression expression state

variable (limit : Nat)

mutual

/-- All numbers that a statement produces are valid. -/
def ValidStatement : Statement → State → Prop
  | .print argument _, state => ValidExpression valid argument state
  | .declare _ none, _ => True
  | .declare _ (some expression), state => ValidExpression valid expression state
  | .conditional test body elseIfs alternate, state =>
    ValidExpression valid test state ∧
      After (holds test) (fun isTrue middle =>
        if isTrue then ValidStatements body middle
        else ValidClauses (ValidStatements alternate) elseIfs middle) state
  | .count counter start stop body, state =>
    ValidExpression valid start state ∧
      After (bound start) (fun first started =>
        ValidExpression valid stop started ∧
          After (bound stop) (fun last =>
            After (declare counter (.number first)) fun _ entered =>
              ∀ state, ComesTo (countRound counter last (executeAll limit body)) entered state →
                After (counterValue counter) (fun value middle => value < last →
                  ValidStatements body middle ∧
                    After (executeAll limit body) (fun _ =>
                      After (counterValue counter) fun value _ => valid (value + 1.0)) middle)
                  state) started) state
  | .loop test body, first =>
    ∀ state, ComesTo (whileRound test (executeAll limit body)) first state →
      ValidExpression valid test state ∧
        After (holds test) (fun isTrue middle => isTrue → ValidStatements body middle) state
  | .evaluate expression, state => ValidExpression valid expression state

/-- All numbers that the clauses of a conditional produce are valid. -/
def ValidClauses (otherwise : State → Prop) : List Clause → State → Prop
  | [], state => otherwise state
  | .mk test body :: clauses, state =>
    ValidExpression valid test state ∧
      After (holds test) (fun isTrue middle =>
        if isTrue then ValidStatements body middle
        else ValidClauses otherwise clauses middle) state

/-- All numbers that statements produce one after another are valid. -/
def ValidStatements : List Statement → State → Prop
  | [], _ => True
  | statement :: statements, state =>
    ValidStatement statement state ∧
      After (execute limit statement) (fun _ => ValidStatements statements) state

end

/-- All numbers that a part of a program produces are valid. -/
def ValidPart : Part → State → Prop
  | .one statement => ValidStatement valid limit statement
  | .all statements => ValidStatements valid limit statements

/-- All numbers that a program produces on an empty store are valid. -/
def ValidProgram (source : Program) : Prop := ValidStatements valid limit source ⟨.empty, #[]⟩

variable {valid limit}

/-- The numbers of clauses are those of what is left of the conditional. -/
theorem validClauses_eq
    (elseIfs : List Clause)
    (alternate : List Statement)
    (state : State)
    (all : ValidClauses valid limit (ValidStatements valid limit alternate) elseIfs state) :
    ValidStatements valid limit (remaining elseIfs alternate) state := by
  match elseIfs, all with
  | [], all => rwa [ValidClauses] at all
  | .mk test body :: rest, all =>
      rw [ValidClauses] at all
      rw [remaining, ValidStatements, ValidStatement]
      exact ⟨all, fun _ _ _ => trivial⟩

end Evaluate
end Pictogram
