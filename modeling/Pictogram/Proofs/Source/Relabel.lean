import Pictogram.Evaluate
import Pictogram.Proofs.Source.Run
import Pictogram.Proofs.Syntax.Relabel
import Pictogram.Proofs.Translation
import Mathlib.Logic.Function.Basic

/-!
# Runs of relabelled programs

A relabelled program does on a store with the names changed what the program does on the
store itself.  It prints the same lines, and what it reports is relabelled.  What has been
printed before makes no difference.
-/

namespace Pictogram

/-! ## Stores with other names -/

/-- The store with other names for its variables. -/
def Store.rename (rename : String → String) (store : Store) : Store :=
  ⟨store.bindings.map fun (name, value) => (rename name, value)⟩

namespace Store

variable {rename : String → String}

theorem rename_id (store : Store) : store.rename id = store := by
  simp [Store.rename]

/-- Names that are kept apart are bound to the same values. -/
theorem get?_rename (injective : rename.Injective) (store : Store) (name : String) :
    (store.rename rename).get? (rename name) = store.get? name := by
  obtain ⟨bindings⟩ := store
  show (bindings.map _).lookup _ = bindings.lookup _
  induction bindings with
  | nil => rfl
  | cons binding rest inductionHypothesis =>
      obtain ⟨bound, value⟩ := binding
      have same : (rename name == rename bound) = (name == bound) := by
        rw [Bool.eq_iff_iff]
        simp [injective.eq_iff]
      simp only [List.map_cons, List.lookup_cons, same, inductionHypothesis]

theorem contains_rename (injective : rename.Injective) (store : Store) (name : String) :
    (store.rename rename).contains (rename name) = store.contains name := by
  rw [contains, contains, get?_rename injective]

/-- A renamed variable can be declared just when the variable can. -/
theorem declare?_rename
    (injective : rename.Injective)
    (store : Store)
    (name : String)
    (value : Value) :
    (store.rename rename).declare? (rename name) value =
      (store.declare? name value).map (Store.rename rename) := by
  rw [declare?, declare?, contains_rename injective]
  split <;> rfl

/-- A renamed variable can be assigned just when the variable can. -/
theorem set?_rename
    (injective : rename.Injective)
    (store : Store)
    (name : String)
    (value : Value) :
    (store.rename rename).set? (rename name) value =
      (store.set? name value).map (Store.rename rename) := by
  rw [set?, set?, contains_rename injective]
  split
  · simp [Store.rename, Function.comp_def, injective.eq_iff]
  · rfl

theorem remove_rename (injective : rename.Injective) (store : Store) (name : String) :
    (store.rename rename).remove (rename name) = (store.remove name).rename rename := by
  simp [remove, Store.rename, List.filter_map, Function.comp_def, injective.eq_iff]

end Store

namespace Evaluate

/-! ## What a run reports, relabelled -/

/-- The fault with other names. -/
def Fault.rename (rename : String → String) : Fault → Fault
  | .undeclared name => .undeclared (rename name)
  | .redeclared name => .redeclared (rename name)
  | .mismatch operator left right => .mismatch operator left right
  | .notNegatable found => .notNegatable found
  | .rangeNotNumeric found => .rangeNotNumeric found

theorem Fault.rename_id (fault : Fault) : fault.rename id = fault := by
  cases fault <;> rfl

/-- The error, relabelled. -/
def Error.relabel (relabel : Relabel) (error : Error) : Error :=
  ⟨error.fault.rename relabel.name, error.position.map relabel.place⟩

/-- The early end, relabelled. -/
def Halt.relabel (relabel : Relabel) : Halt → Halt
  | .error found => .error (found.relabel relabel)
  | .exhausted => .exhausted

theorem Halt.relabel_moving_id (halt : Halt) : halt.relabel (.moving id) = halt := by
  cases halt with
  | exhausted => rfl
  | error error =>
      simp only [Halt.relabel, Error.relabel, Relabel.moving, Fault.rename_id, Option.map_id_apply]

/-- A run on a relabelled store, after lines have been printed. -/
def relabelled (relabel : Relabel) (earlier : Array String) : Translation Halt State where
  state state := ⟨state.store.rename relabel.name, earlier ++ state.printed⟩
  error := Halt.relabel relabel

section Steps

variable {relabel : Relabel} {earlier : Array String}

open Translation (Carries)

theorem carries_fail {α : Type} (fault : Fault) (position : Position) :
    (relabelled relabel earlier).Carries id (fail fault position : Run α)
      (fail (fault.rename relabel.name) (relabel.place position)) :=
  .throw _

theorem carries_outcome {α : Type} (result : Except Error α) :
    (relabelled relabel earlier).Carries id (outcome result)
      (outcome (result.mapError (·.relabel relabel))) := by
  cases result with
  | ok value => exact .pure value
  | error error => exact .throw _

theorem carries_print (line : String) :
    (relabelled relabel earlier).Carries id (print line) (print line) := by
  refine .modify fun state => ?_
  simp [relabelled]

variable (injective : relabel.name.Injective)
include injective

theorem carries_lookUp (target : Identifier) :
    (relabelled relabel earlier).Carries id (lookUp target)
      (lookUp (target.relabel relabel)) := by
  refine .bind .get fun state => ?_
  simp only [relabelled, Identifier.relabel, Store.get?_rename injective]
  cases state.store.get? target.name with
  | some value => exact .pure value
  | none => exact carries_fail _ _

theorem carries_requireBound (target : Identifier) :
    (relabelled relabel earlier).Carries id (requireBound target)
      (requireBound (target.relabel relabel)) := by
  refine .bind .get fun state => ?_
  simp only [relabelled, Identifier.relabel, Store.contains_rename injective]
  cases state.store.contains target.name with
  | true => exact .pure ()
  | false => exact carries_fail _ _

theorem carries_requireFree (target : Identifier) :
    (relabelled relabel earlier).Carries id (requireFree target)
      (requireFree (target.relabel relabel)) := by
  refine .bind .get fun state => ?_
  simp only [relabelled, Identifier.relabel, Store.contains_rename injective]
  cases state.store.contains target.name with
  | true => exact carries_fail _ _
  | false => exact .pure ()

theorem carries_assign (target : Identifier) (value : Value) :
    (relabelled relabel earlier).Carries id (assign target value)
      (assign (target.relabel relabel) value) := by
  refine .bind .get fun state => ?_
  simp only [relabelled, Identifier.relabel, Store.set?_rename injective]
  cases state.store.set? target.name value with
  | some store => exact fun _ => rfl
  | none => exact carries_fail _ _

theorem carries_declare (target : Identifier) (value : Value) :
    (relabelled relabel earlier).Carries id (declare target value)
      (declare (target.relabel relabel) value) := by
  refine .bind .get fun state => ?_
  simp only [relabelled, Identifier.relabel, Store.declare?_rename injective]
  cases state.store.declare? target.name value with
  | some store => exact fun _ => rfl
  | none => exact carries_fail _ _

/-! ## Expressions -/

/-- A relabelled expression is evaluated as the expression is. -/
theorem carries_evaluate (e : Expression) :
    (relabelled relabel earlier).Carries id (evaluate e) (evaluate (e.relabel relabel)) := by
  induction e with
  | literal value position => exact .pure _
  | name target => exact carries_lookUp injective target
  | negate argument position argumentCarries =>
      refine .bind argumentCarries fun operand => ?_
      have same : negated operand (relabel.place position) =
          (negated operand position).mapError (·.relabel relabel) := by
        cases operand <;> rfl
      show Carries _ _ _ (outcome (negated operand (relabel.place position)))
      rw [same]
      exact carries_outcome _
  | binary operator left right position leftCarries rightCarries =>
      refine .bind leftCarries fun first => .bind rightCarries fun second => ?_
      have same : operate operator first second (relabel.place position) =
          (operate operator first second position).mapError (·.relabel relabel) := by
        unfold operate
        cases operation? operator first second <;> rfl
      show Carries _ _ _ (outcome (operate operator first second (relabel.place position)))
      rw [same]
      exact carries_outcome _
  | assign target expression expressionCarries =>
      refine .bind (carries_requireBound injective target) fun _ => ?_
      refine .bind expressionCarries fun value => ?_
      exact .bind (carries_assign injective target value) fun _ => .pure value

theorem carries_holds (test : Expression) :
    (relabelled relabel earlier).Carries id (holds test) (holds (test.relabel relabel)) :=
  .bind (carries_evaluate injective test) fun _ => .pure _

theorem carries_bound (e : Expression) :
    (relabelled relabel earlier).Carries id (bound e) (bound (e.relabel relabel)) := by
  refine .bind (carries_evaluate injective e) fun value => ?_
  cases value with
  | number value => exact .pure value
  | null | boolean | string =>
      simp only [Expression.position_relabel]
      exact carries_fail _ _

theorem carries_counterValue (counter : Identifier) :
    (relabelled relabel earlier).Carries id (counterValue counter)
      (counterValue (counter.relabel relabel)) := by
  refine .bind (carries_lookUp injective counter) fun value => ?_
  cases value with
  | number value => exact .pure value
  | null | boolean | string => exact carries_fail _ _

/-! ## Loops -/

omit injective in
/-- A relabelled loop takes as many rounds as the loop does. -/
theorem carries_rounds
    {step follow : Run Bool}
    (stepCarries : (relabelled relabel earlier).Carries id step follow)
    (limit : Nat) :
    (relabelled relabel earlier).Carries id (rounds step limit) (rounds follow limit) := by
  induction limit with
  | zero => exact .throw Halt.exhausted
  | succ more inductionHypothesis =>
      refine .bind stepCarries fun again => ?_
      cases again with
      | true => exact inductionHypothesis
      | false => exact .pure ()

theorem carries_whileRound
    (test : Expression)
    {body follow : Run Unit}
    (bodyCarries : (relabelled relabel earlier).Carries id body follow) :
    (relabelled relabel earlier).Carries id (whileRound test body)
      (whileRound (test.relabel relabel) follow) := by
  refine .bind (carries_holds injective test) fun isTrue => ?_
  cases isTrue with
  | true => exact .bind bodyCarries fun _ => .pure true
  | false => exact .pure false

theorem carries_countRound
    (counter : Identifier)
    (stop : Float)
    {body follow : Run Unit}
    (bodyCarries : (relabelled relabel earlier).Carries id body follow) :
    (relabelled relabel earlier).Carries id (countRound counter stop body)
      (countRound (counter.relabel relabel) stop follow) := by
  refine .bind (carries_counterValue injective counter) fun value => ?_
  simp only [id]
  split
  · refine .bind bodyCarries fun _ => ?_
    refine .bind (carries_counterValue injective counter) fun value => ?_
    refine .bind (.modify fun state => ?_) fun _ => .pure true
    simp only [relabelled, Identifier.relabel, Store.set?_rename injective, id]
    cases state.store.set? counter.name (.number (value + 1.0)) <;> rfl
  · exact .pure false

theorem carries_removing
    (name : String)
    {run follow : Run Unit}
    (runCarries : (relabelled relabel earlier).Carries id run follow) :
    (relabelled relabel earlier).Carries id (removing name run)
      (removing (relabel.name name) follow) := by
  intro state
  unfold removing
  rw [runCarries state]
  cases run state with
  | ok value last =>
      simp [Translation.result, relabelled, Store.remove_rename injective]
  | error halt last =>
      simp [Translation.result, relabelled, Store.remove_rename injective]

end Steps

section Statements

variable {relabel : Relabel} {earlier : Array String}

/-! ## Statements -/

mutual

/-- A relabelled statement runs as the statement does. -/
theorem carries_execute
    (injective : relabel.name.Injective)
    (limit : Nat)
    (statement : Statement) :
    (relabelled relabel earlier).Carries id (execute limit statement)
      (execute limit (statement.relabel relabel)) := by
  match statement with
  | .print argument position =>
      rw [Statement.relabel, execute, execute]
      exact .bind (carries_evaluate injective argument) fun _ => carries_print _
  | .declare target init =>
      rw [Statement.relabel, execute, execute]
      refine .bind (carries_requireFree injective target) fun _ => ?_
      cases init with
      | none => exact .bind (.pure Value.null) fun value => carries_declare injective target value
      | some value =>
          exact .bind (carries_evaluate injective value) (carries_declare injective target)
  | .conditional test body elseIfs alternate =>
      rw [Statement.relabel, execute, execute]
      refine .bind (carries_holds injective test) fun isTrue => ?_
      cases isTrue with
      | true => exact carries_executeAll injective limit body
      | false =>
          exact carries_executeClauses injective limit
            (carries_executeAll injective limit alternate) elseIfs
  | .count counter start stop body =>
      rw [Statement.relabel, execute, execute]
      refine .bind (carries_bound injective start) fun first => ?_
      refine .bind (carries_bound injective stop) fun last => ?_
      refine .bind (carries_declare injective counter _) fun _ => ?_
      refine carries_removing injective counter.name (carries_rounds ?_ limit)
      exact carries_countRound injective counter last (carries_executeAll injective limit body)
  | .loop test body =>
      rw [Statement.relabel, execute, execute]
      refine carries_rounds (carries_whileRound injective test ?_) limit
      exact carries_executeAll injective limit body
  | .evaluate expression =>
      rw [Statement.relabel, execute, execute]
      exact .bind (carries_evaluate injective expression) fun _ => .pure ()

theorem carries_executeClauses
    (injective : relabel.name.Injective)
    (limit : Nat)
    {otherwise follow : Run Unit}
    (otherwiseCarries : (relabelled relabel earlier).Carries id otherwise follow)
    (clauses : List Clause) :
    (relabelled relabel earlier).Carries id (executeClauses limit otherwise clauses)
      (executeClauses limit follow (relabelClauses relabel clauses)) := by
  match clauses with
  | [] =>
      rw [relabelClauses, executeClauses, executeClauses]
      exact otherwiseCarries
  | .mk test body :: rest =>
      rw [relabelClauses, executeClauses, executeClauses]
      refine .bind (carries_holds injective test) fun isTrue => ?_
      cases isTrue with
      | true => exact carries_executeAll injective limit body
      | false => exact carries_executeClauses injective limit otherwiseCarries rest

/-- A relabelled program does what the program does, on a relabelled store and after any lines
have been printed. -/
theorem carries_executeAll
    (injective : relabel.name.Injective)
    (limit : Nat)
    (program : List Statement) :
    (relabelled relabel earlier).Carries id (executeAll limit program)
      (executeAll limit (Program.relabel relabel program)) := by
  match program with
  | [] =>
      rw [Program.relabel, executeAll]
      exact .pure ()
  | statement :: rest =>
      rw [Program.relabel, executeAll, executeAll]
      refine .bind (carries_execute injective limit statement) fun _ => ?_
      exact carries_executeAll injective limit rest

end

end Statements
end Evaluate

/-- What a run leaves behind, relabelled. -/
def RunReport.relabel (relabel : Relabel) (report : RunReport) : RunReport :=
  ⟨report.store.rename relabel.name, report.lines, report.halt.map (·.relabel relabel)⟩

/-- A relabelled program leaves behind what the program does, relabelled. -/
theorem Evaluate.program_relabel
    {relabel : Relabel}
    (injective : relabel.name.Injective)
    (limit : Nat)
    (store : Store)
    (statements : Program) :
    program limit (store.rename relabel.name) (Program.relabel relabel statements) =
      (program limit store statements).relabel relabel := by
  have carried : (relabelled relabel #[]).Carries id _ _ :=
    carries_executeAll injective limit statements
  have begun : (⟨store.rename relabel.name, #[]⟩ : State) =
      (relabelled relabel #[]).state ⟨store, #[]⟩ := rfl
  rw [program, program, start, start, begun, carried]
  cases executeAll limit statements ⟨store, #[]⟩ with
  | ok value last => simp [Translation.result, relabelled, RunReport.relabel]
  | error halt last => simp [Translation.result, relabelled, RunReport.relabel]

end Pictogram
