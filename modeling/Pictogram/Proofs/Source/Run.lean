import Pictogram.Evaluate
import Pictogram.Proofs.Source.Declarations
import Pictogram.Proofs.Stateful

/-!
# Parts of a run

Runs of the parts of a program, and what can be said of a run as a whole from
what each of its steps does.
-/

namespace Pictogram
namespace Evaluate

open Pictogram.Compile (Part remaining)

/-- Runs a part of a program. -/
def runPart (limit : Nat) : Part → Run Unit
  | .one statement => execute limit statement
  | .all statements => executeAll limit statements

/-- Further clauses are run like a conditional in place of the alternate. -/
theorem executeClauses_eq
    (limit : Nat)
    (elseIfs : List Clause)
    (alternate : List Statement) :
    executeClauses limit (executeAll limit alternate) elseIfs =
      executeAll limit (remaining elseIfs alternate) := by
  cases elseIfs with
  | nil => rw [executeClauses, remaining]
  | cons clause rest =>
      cases clause
      rw [executeClauses, remaining, executeAll, execute, executeAll, bind_pure_unit]

/-- What is certain of the end of a run: either it has come to its end, and `after`
holds, or it has used up its rounds, or it has ended in one of the errors. -/
def Ends
    {α : Type}
    (errors : Error → Prop)
    (after : α → State → Prop) :
    EStateM.Result Halt State α → Prop
  | .ok value state => after value state
  | .error (.error error) _ => errors error
  | .error .exhausted _ => True

namespace Ends

variable {α β : Type} {errors : Error → Prop}

/-- What is certain of a run stays certain if less is said of its end. -/
theorem mono
    {result : EStateM.Result Halt State α}
    {after later : α → State → Prop}
    (ends : Ends errors after result)
    (weaker : ∀ value state, after value state → later value state) :
    Ends errors later result := by
  match result, ends with
  | .ok value state, holds => exact weaker value state holds
  | .error (.error _) _, holds => exact holds
  | .error .exhausted _, _ => trivial

theorem pure
    {value : α}
    {state : State}
    {after : α → State → Prop}
    (holds : after value state) :
    Ends errors after ((Pure.pure value : Run α) state) := holds

/-- What is certain of the first of two runs may be used for the second. -/
theorem bind
    {first : Run α}
    {next : α → Run β}
    {state : State}
    {between : α → State → Prop}
    {after : β → State → Prop}
    (firstEnds : Ends errors between (first state))
    (nextEnds : ∀ value middle, between value middle → Ends errors after (next value middle)) :
    Ends errors after ((first >>= next) state) := by
  show Ends errors after (EStateM.bind first next state)
  unfold EStateM.bind
  cases ran : first state with
  | ok value middle =>
      rw [ran] at firstEnds
      exact nextEnds value middle firstEnds
  | error halt middle =>
      rw [ran] at firstEnds
      cases halt with
      | error error => exact firstEnds
      | exhausted => trivial

/-- A loop keeps what each of its rounds keeps. -/
theorem rounds
    {step : Run Bool}
    {invariant : State → Prop}
    {state : State}
    (limit : Nat)
    (stepEnds : ∀ state, invariant state → Ends errors (fun _ => invariant) (step state))
    (holds : invariant state) :
    Ends errors (fun _ => invariant) (Evaluate.rounds step limit state) := by
  induction limit generalizing state with
  | zero => trivial
  | succ more inductionHypothesis =>
      refine .bind (stepEnds state holds) fun again middle middleHolds => ?_
      cases again with
      | true => exact inductionHypothesis middleHolds
      | false => exact .pure middleHolds

/-- A variable is gone at the end of a run, however it ends. -/
theorem removing
    {name : String}
    {run : Run Unit}
    {state : State}
    {after : State → Prop}
    (ends : Ends errors (fun _ last => after { last with store := last.store.remove name })
      (run state)) :
    Ends errors (fun _ => after) (Evaluate.removing name run state) := by
  unfold Evaluate.removing
  cases ran : run state with
  | ok value last =>
      rw [ran] at ends
      exact ends
  | error halt last =>
      rw [ran] at ends
      cases halt with
      | error error => exact ends
      | exhausted => trivial

end Ends

/-! ## What a step has done that came to its end -/

section Steps

variable {state last : State} {id : Identifier} {value : Value}

theorem outcome_ok
    {α : Type}
    {result : Except Error α}
    {value : α}
    (ran : outcome result state = .ok value last) :
    result = .ok value ∧ state = last := by
  cases result with
  | ok given =>
      obtain ⟨rfl, rfl⟩ := Stateful.pure_eq_ok.mp ran
      exact ⟨rfl, rfl⟩
  | error => cases ran

theorem lookUp_eq :
    lookUp id state = (match state.store.get? id.name with
      | some value => (return value : Run Value)
      | none => fail (.undeclared id.name) id.position) state := rfl

theorem assign_eq :
    assign id value state = (match state.store.set? id.name value with
      | some store => (set { state with store } : Run Unit)
      | none => fail (.undeclared id.name) id.position) state := rfl

theorem declare_eq :
    declare id value state = (match state.store.declare? id.name value with
      | some store => (set { state with store } : Run Unit)
      | none => fail (.redeclared id.name) id.position) state := rfl

/-- A variable that is looked up is bound, and nothing changes. -/
theorem lookUp_ok (ran : lookUp id state = .ok value last) :
    state.store.get? id.name = some value ∧ state = last := by
  rw [lookUp_eq] at ran
  cases read : state.store.get? id.name with
  | none =>
      rw [read] at ran
      cases ran
  | some found =>
      rw [read] at ran
      obtain ⟨rfl, rfl⟩ := Stateful.pure_eq_ok.mp ran
      exact ⟨rfl, rfl⟩

theorem requireBound_ok (ran : requireBound id state = .ok () last) : state = last := by
  change (if state.store.contains id.name = true then Pure.pure ()
    else fail (.undeclared id.name) id.position : Run Unit) state = _ at ran
  split at ran
  · exact (Stateful.pure_eq_ok.mp ran).2
  · cases ran

theorem requireFree_ok (ran : requireFree id state = .ok () last) : state = last := by
  change (if state.store.contains id.name = true then
    fail (.redeclared id.name) id.position else Pure.pure () : Run Unit) state = _ at ran
  split at ran
  · cases ran
  · exact (Stateful.pure_eq_ok.mp ran).2

/-- A variable that is assigned is bound, and nothing but the store changes. -/
theorem assign_ok (ran : assign id value state = .ok () last) :
    ∃ store, state.store.set? id.name value = some store ∧ last = { state with store } := by
  rw [assign_eq] at ran
  cases changed : state.store.set? id.name value with
  | none =>
      rw [changed] at ran
      cases ran
  | some store =>
      rw [changed] at ran
      cases ran
      exact ⟨store, rfl, rfl⟩

/-- A variable that is declared is free, and nothing but the store changes. -/
theorem declare_ok (ran : declare id value state = .ok () last) :
    ∃ store, state.store.declare? id.name value = some store ∧ last = { state with store } := by
  rw [declare_eq] at ran
  cases declared : state.store.declare? id.name value with
  | none =>
      rw [declared] at ran
      cases ran
  | some store =>
      rw [declared] at ran
      cases ran
      exact ⟨store, rfl, rfl⟩

/-- The bound of a loop is the value of its expression, which is a number. -/
theorem bound_ok
    {e : Expression}
    {number : Float}
    (ran : bound e state = .ok number last) :
    evaluate e state = .ok (.number number) last := by
  obtain ⟨found, middle, evaluated, ran⟩ := Stateful.bind_eq_ok.mp ran
  cases found with
  | number value =>
      obtain ⟨rfl, rfl⟩ := Stateful.pure_eq_ok.mp ran
      exact evaluated
  | null | boolean | string => cases ran

/-- The counter of a loop is bound to a number, and nothing changes. -/
theorem counterValue_ok
    {number : Float}
    (ran : counterValue id state = .ok number last) :
    state.store.get? id.name = some (.number number) ∧ state = last := by
  obtain ⟨found, middle, lookedUp, ran⟩ := Stateful.bind_eq_ok.mp ran
  obtain ⟨read, rfl⟩ := lookUp_ok lookedUp
  cases found with
  | number value =>
      obtain ⟨rfl, rfl⟩ := Stateful.pure_eq_ok.mp ran
      exact ⟨read, rfl⟩
  | null | boolean | string => cases ran

/-- A test holds if the value of its expression is truthy. -/
theorem holds_ok
    {test : Expression}
    {isTrue : Bool}
    (ran : holds test state = .ok isTrue last) :
    ∃ value, evaluate test state = .ok value last ∧ value.isTruthy = isTrue := by
  obtain ⟨value, middle, evaluated, ran⟩ := Stateful.bind_eq_ok.mp ran
  obtain ⟨rfl, rfl⟩ := Stateful.pure_eq_ok.mp ran
  exact ⟨value, evaluated, rfl⟩

/-- A variable is removed once the run is at its end. -/
theorem removing_ok
    {name : String}
    {run : Run Unit}
    (ran : removing name run state = .ok () last) :
    ∃ middle, run state = .ok () middle ∧
      last = { middle with store := middle.store.remove name } := by
  unfold removing at ran
  cases inside : run state with
  | ok _ middle =>
      rw [inside] at ran
      cases ran
      exact ⟨middle, rfl, rfl⟩
  | error halt middle =>
      rw [inside] at ran
      cases ran

end Steps

end Evaluate
end Pictogram
