import Pictogram.Proofs.Source.Numbers
import Pictogram.Proofs.Source.Store
import Pictogram.Proofs.Source.Wrapping

/-!
# What a run leaves alone

However a run ends, it has lost no variable, it has added only variables that the program
declares, and it has given other values only to variables that the program assigns.  A loop
adds its counter and takes the same counter away, so that nothing is left of it.
-/

namespace Pictogram

/-! ## The variables that statements assign -/

mutual

/-- The variables assigned inside a statement, however deep. -/
def Statement.targets : Statement → List String
  | .print argument _ => Wrapping.targets argument
  | .declare _ none => []
  | .declare _ (some value) => Wrapping.targets value
  | .conditional test body elseIfs alternate =>
    Wrapping.targets test ++ (targetsOf body ++ (clauseTargets elseIfs ++ targetsOf alternate))
  | .count _ start stop body =>
    Wrapping.targets start ++ (Wrapping.targets stop ++ targetsOf body)
  | .loop test body => Wrapping.targets test ++ targetsOf body
  | .evaluate expression => Wrapping.targets expression

/-- The variables assigned inside further clauses. -/
def clauseTargets : List Clause → List String
  | [] => []
  | .mk test body :: rest => Wrapping.targets test ++ (targetsOf body ++ clauseTargets rest)

/-- The variables assigned inside several statements. -/
def targetsOf : List Statement → List String
  | [] => []
  | first :: rest => first.targets ++ targetsOf rest

end

/-! ## Changes to a store -/

/-- What may become of a store: no variable is lost, a new one is among the declared ones, and
one that is not among the assigned ones keeps its value. -/
structure Store.Frame (declared assigned : List String) (before after : Store) : Prop where
  kept : ∀ name, before.contains name → after.contains name
  fresh : ∀ name, after.contains name → before.contains name ∨ name ∈ declared
  unchanged : ∀ name, before.contains name → name ∉ assigned → after.get? name = before.get? name

/-- A free name is none of those bound. -/
theorem Store.ne_of_free
    {store : Store}
    {name other : String}
    (free : store.get? name = none)
    (bound : store.contains other) :
    other ≠ name := by
  rintro rfl
  rw [contains_eq, free] at bound
  cases bound

namespace Store.Frame

variable {declared assigned : List String} {before middle after : Store}
variable {name : String} {value : Value}

/-- A store that has not changed is within every frame. -/
theorem refl (store : Store) : store.Frame declared assigned store :=
  ⟨fun _ bound => bound, fun _ bound => .inl bound, fun _ _ _ => rfl⟩

/-- What is within a frame in two steps is within it. -/
theorem trans
    (first : before.Frame declared assigned middle)
    (second : middle.Frame declared assigned after) :
    before.Frame declared assigned after where
  kept name bound := second.kept name (first.kept name bound)
  fresh name bound := by
    rcases second.fresh name bound with bound | isDeclared
    · exact first.fresh name bound
    · exact .inr isDeclared
  unchanged name bound notAssigned := by
    rw [second.unchanged name (first.kept name bound) notAssigned]
    exact first.unchanged name bound notAssigned

/-- An assignment changes the store within every frame that allows it. -/
theorem of_set?
    (changed : before.set? name value = some after)
    (isAssigned : name ∈ assigned) :
    before.Frame declared assigned after := by
  obtain ⟨bound, reads⟩ := set?_eq_some changed
  have sameNames : ∀ other, after.contains other = before.contains other := by
    intro other
    rw [contains_eq, contains_eq, reads]
    split
    · rename_i same
      rw [same, bound]
      rfl
    · rfl
  refine ⟨fun other => (sameNames other).symm ▸ id, fun other => sameNames other ▸ .inl, ?_⟩
  intro other _ notAssigned
  rw [reads, if_neg fun same : other = name => notAssigned (same ▸ isAssigned)]

/-- A declaration changes the store within every frame that allows it. -/
theorem of_declare?
    (added : before.declare? name value = some after)
    (isDeclared : name ∈ declared) :
    before.Frame declared assigned after := by
  obtain ⟨free, reads⟩ := declare?_eq_some added
  refine ⟨fun other bound => ?_, fun other bound => ?_, fun other bound _ => ?_⟩
  · rw [contains_eq, reads, if_neg (ne_of_free free bound)]
    exact bound
  · rw [contains_eq, reads] at bound
    split at bound
    · rename_i same
      exact .inr (same ▸ isDeclared)
    · exact .inl bound
  · rw [reads, if_neg (ne_of_free free bound)]

/-- A variable that is added for a while, and then removed, may change in the meantime. -/
theorem of_scope
    (added : before.declare? name value = some middle)
    (inside : middle.Frame declared (name :: assigned) after) :
    before.Frame declared assigned (after.remove name) := by
  obtain ⟨free, reads⟩ := declare?_eq_some added
  have entered : ∀ other, other ≠ name → middle.contains other = before.contains other := by
    intro other notName
    rw [contains_eq, contains_eq, reads, if_neg notName]
  refine ⟨fun other bound => ?_, fun other bound => ?_, fun other bound notAssigned => ?_⟩
  · have notName := ne_of_free free bound
    rw [contains_eq, get?_remove, if_neg notName]
    exact inside.kept other ((entered other notName).trans bound)
  · rw [contains_eq, get?_remove] at bound
    split at bound
    · cases bound
    · rename_i notName
      rw [← entered other notName]
      exact inside.fresh other bound
  · have notName := ne_of_free free bound
    rw [get?_remove, if_neg notName,
      inside.unchanged other ((entered other notName).trans bound) (by simp [notName, notAssigned]),
      reads, if_neg notName]

end Store.Frame

namespace Evaluate

/-! ## What a run does to the state, however it ends -/

/-- The state that a run ends in, however it ends. -/
def finalState {α : Type} : EStateM.Result Halt State α → State
  | .ok _ state => state
  | .error _ state => state

/-- A run goes from every state to a related one, however it ends. -/
def Related {α : Type} (relation : State → State → Prop) (run : Run α) : Prop :=
  ∀ state, relation state (finalState (run state))

namespace Related

variable {α β : Type} {relation : State → State → Prop} [IsPreorder State relation]

/-- A run that changes nothing. -/
theorem of_state_eq
    {run : Run α}
    (same : ∀ state, finalState (run state) = state) :
    Related relation run := by
  intro state
  rw [same]
  exact refl_of relation state

protected theorem pure (value : α) : Related relation (pure value) :=
  of_state_eq fun _ => rfl

/-- Runs that go to related states do so one after the other. -/
protected theorem bind
    {first : Run α}
    {next : α → Run β}
    (firstRelated : Related relation first)
    (nextRelated : ∀ value, Related relation (next value)) :
    Related relation (first >>= next) := by
  intro state
  have begun := firstRelated state
  show relation state (finalState (EStateM.bind first next state))
  unfold EStateM.bind
  cases ran : first state with
  | ok value middle =>
      rw [ran] at begun
      exact trans_of relation begun (nextRelated value middle)
  | error halt middle =>
      rw [ran] at begun
      exact begun

/-- Runs one after the other fail if the second one does wherever the first comes to an end. -/
theorem bind_fails
    {first : Run α}
    {next : α → Run β}
    {state : State}
    (firstRelated : Related relation first)
    (nextFails : ∀ value middle, relation state middle →
      ∃ halt last, next value middle = .error halt last ∧ relation middle last) :
    ∃ halt last, (first >>= next) state = .error halt last ∧ relation state last := by
  have begun := firstRelated state
  cases ran : first state with
  | ok value middle =>
      rw [ran] at begun
      obtain ⟨halt, last, failed, related⟩ := nextFails value middle begun
      exact ⟨halt, last, Stateful.bind_eq_error.mpr (.inr ⟨value, middle, ran, failed⟩),
        trans_of relation begun related⟩
  | error halt last =>
      rw [ran] at begun
      exact ⟨halt, last, Stateful.bind_eq_error.mpr (.inl ran), begun⟩

theorem lookUp (id : Identifier) : Related relation (lookUp id) := by
  apply of_state_eq
  intro state
  rw [lookUp_eq]
  cases state.store.get? id.name <;> rfl

theorem requireBound (id : Identifier) : Related relation (requireBound id) := by
  apply of_state_eq
  intro state
  show finalState ((if state.store.contains id.name = true then Pure.pure ()
    else fail (.undeclared id.name) id.position : Run Unit) state) = _
  split <;> rfl

theorem requireFree (id : Identifier) : Related relation (requireFree id) := by
  apply of_state_eq
  intro state
  show finalState ((if state.store.contains id.name = true then
    fail (.redeclared id.name) id.position else Pure.pure () : Run Unit) state) = _
  split <;> rfl

/-- The outcome of an operation leaves the state as it is. -/
theorem outcome (result : Except Error α) : Related relation (outcome result) := by
  cases result <;> exact of_state_eq fun _ => rfl

/-- An expression changes the state by its assignments only. -/
theorem evaluate
    {e : Expression}
    (assigns : ∀ target ∈ Wrapping.targets e, ∀ (state : State) (value : Value) (store : Store),
      state.store.set? target value = some store → relation state { state with store }) :
    Related relation (evaluate e) := by
  induction e with
  | literal => exact .pure _
  | name target => exact .lookUp target
  | negate argument position argumentRelated =>
      exact .bind (argumentRelated assigns) fun _ => .outcome _
  | binary operator left right position leftRelated rightRelated =>
      obtain ⟨inLeft, inRight⟩ := List.forall_mem_append.mp assigns
      exact .bind (leftRelated inLeft) fun _ => .bind (rightRelated inRight) fun _ => .outcome _
  | assign target expression expressionRelated =>
      obtain ⟨inside, atTarget⟩ := List.forall_mem_append.mp assigns
      refine .bind (.requireBound target) fun _ => ?_
      refine .bind (expressionRelated inside) fun value => ?_
      refine .bind (fun state => ?_) fun _ => .pure value
      rw [assign_eq]
      cases changed : state.store.set? target.name value with
      | some store => exact atTarget _ (List.mem_singleton_self _) state value store changed
      | none => exact refl_of relation state

/-- So does a bound of a loop. -/
theorem bound
    {e : Expression}
    (assigns : ∀ target ∈ Wrapping.targets e, ∀ (state : State) (value : Value) (store : Store),
      state.store.set? target value = some store → relation state { state with store }) :
    Related relation (bound e) := by
  refine .bind (.evaluate assigns) fun value => ?_
  cases value <;> exact of_state_eq fun _ => rfl

end Related

/-- Nothing has been printed in between. -/
def SamePrinted (before after : State) : Prop := after.printed = before.printed

instance : IsPreorder State SamePrinted where
  refl _ := rfl
  trans _ _ _ first second := second.trans first

/-- Expressions do not print. -/
theorem evaluate_printed
    {e : Expression}
    {state last : State}
    {value : Value}
    (ran : evaluate e state = .ok value last) :
    last.printed = state.printed := by
  have silent : Related SamePrinted (evaluate e) := .evaluate fun _ _ _ _ _ _ => rfl
  have same := silent state
  rwa [ran] at same

/-! ## Runs that keep to a frame -/

/-- The store has changed within a frame. -/
def Within (declared assigned : List String) (before after : State) : Prop :=
  before.store.Frame declared assigned after.store

instance (declared assigned : List String) : IsPreorder State (Within declared assigned) where
  refl _ := .refl _
  trans _ _ _ first second := first.trans second

/-- However it ends, a run changes the store within a frame. -/
abbrev Framed {α : Type} (declared assigned : List String) (run : Run α) : Prop :=
  Related (Within declared assigned) run

namespace Framed

variable {declared assigned : List String}

theorem declare
    {id : Identifier}
    (isDeclared : id.name ∈ declared)
    (value : Value) :
    Framed declared assigned (declare id value) := by
  intro state
  rw [declare_eq]
  cases added : state.store.declare? id.name value with
  | some store => exact .of_declare? added isDeclared
  | none => exact refl_of _ state

/-- An expression assigns only its targets. -/
theorem evaluate
    {e : Expression}
    (assigns : Wrapping.targets e ⊆ assigned) :
    Framed declared assigned (evaluate e) :=
  Related.evaluate fun _ isTarget _ _ _ changed => .of_set? changed (assigns isTarget)

theorem holds
    {test : Expression}
    (assigns : Wrapping.targets test ⊆ assigned) :
    Framed declared assigned (holds test) :=
  .bind (Framed.evaluate assigns) fun _ => .pure _

theorem bound
    {e : Expression}
    (assigns : Wrapping.targets e ⊆ assigned) :
    Framed declared assigned (bound e) :=
  Related.bound fun _ isTarget _ _ _ changed => .of_set? changed (assigns isTarget)

theorem counterValue (counter : Identifier) :
    Framed declared assigned (counterValue counter) := by
  refine .bind (.lookUp counter) fun value => ?_
  cases value <;> exact Related.of_state_eq fun _ => rfl

/-! ## Loops -/

/-- A loop keeps to a frame, in any number of rounds, if a round does. -/
theorem rounds
    {step : Run Bool}
    (stepFramed : Framed declared assigned step)
    (limit : Nat) :
    Framed declared assigned (rounds step limit) := by
  induction limit with
  | zero => exact Related.of_state_eq fun _ => rfl
  | succ more inductionHypothesis =>
      refine .bind stepFramed fun again => ?_
      cases again with
      | true => exact inductionHypothesis
      | false => exact .pure ()

theorem whileRound
    {test : Expression}
    {body : Run Unit}
    (assigns : Wrapping.targets test ⊆ assigned)
    (bodyFramed : Framed declared assigned body) :
    Framed declared assigned (whileRound test body) := by
  refine .bind (Framed.holds assigns) fun isTrue => ?_
  cases isTrue with
  | true => exact .bind bodyFramed fun _ => .pure true
  | false => exact .pure false

/-- A round of a counting loop assigns the counter besides what its body does. -/
theorem countRound
    {counter : Identifier}
    (isAssigned : counter.name ∈ assigned)
    (stop : Float)
    {body : Run Unit}
    (bodyFramed : Framed declared assigned body) :
    Framed declared assigned (countRound counter stop body) := by
  refine .bind (Framed.counterValue counter) fun value => ?_
  split
  · refine .bind bodyFramed fun _ => ?_
    refine .bind (Framed.counterValue counter) fun value => ?_
    refine .bind (fun state => ?_) fun _ => .pure true
    show state.store.Frame declared assigned
      ((state.store.set? counter.name (.number (value + 1.0))).getD state.store)
    cases changed : state.store.set? counter.name (.number (value + 1.0)) with
    | some store => exact .of_set? changed isAssigned
    | none => exact .refl _
  · exact .pure false

/-- A loop may change its counter, which is not there before and not there afterwards. -/
theorem removing
    {counter : Identifier}
    {run : Run Unit}
    (runFramed : Framed declared (counter.name :: assigned) run)
    (value : Value) :
    Framed declared assigned (do
      Evaluate.declare counter value
      Evaluate.removing counter.name run) := by
  intro state
  show state.store.Frame declared assigned (finalState (EStateM.bind _ _ state)).store
  unfold EStateM.bind
  rw [declare_eq]
  cases added : state.store.declare? counter.name value with
  | none => exact .refl _
  | some store =>
      have inside := runFramed { state with store }
      show state.store.Frame declared assigned
        (finalState (Evaluate.removing counter.name run { state with store })).store
      unfold Evaluate.removing
      cases ran : run { state with store } with
      | ok _ last =>
          rw [ran] at inside
          exact .of_scope added inside
      | error halt last =>
          rw [ran] at inside
          exact .of_scope added inside

/-! ## Statements -/

mutual

/-- A statement declares only what it declares inside, and assigns only its targets. -/
theorem execute
    {declared assigned : List String}
    (limit : Nat)
    {statement : Statement}
    (declares : ∀ declaration ∈ statement.declarations, declaration.1.name ∈ declared)
    (assigns : statement.targets ⊆ assigned) :
    Framed declared assigned (execute limit statement) := by
  match statement with
  | .print argument _ =>
      rw [Statement.targets] at assigns
      rw [Evaluate.execute]
      exact .bind (Framed.evaluate assigns) fun _ state => .refl state.store
  | .declare id none =>
      rw [Evaluate.execute]
      refine .bind (.requireFree id) fun _ => ?_
      exact .bind (.pure Value.null)
        (Framed.declare (declares (id, none) (by simp [Statement.declarations])))
  | .declare id (some value) =>
      rw [Statement.targets] at assigns
      rw [Evaluate.execute]
      refine .bind (.requireFree id) fun _ => ?_
      exact .bind (Framed.evaluate assigns)
        (Framed.declare (declares (id, some value) (by simp [Statement.declarations])))
  | .conditional test body elseIfs alternate =>
      rw [Statement.declarations, List.forall_mem_append, List.forall_mem_append] at declares
      rw [Statement.targets, List.append_subset, List.append_subset, List.append_subset] at assigns
      obtain ⟨inTest, inBody, inClauses, inAlternate⟩ := assigns
      rw [Evaluate.execute]
      refine .bind (Framed.holds inTest) fun isTrue => ?_
      cases isTrue with
      | true => exact executeAll limit declares.1 inBody
      | false =>
          exact executeClauses limit (executeAll limit declares.2.2 inAlternate) declares.2.1
            inClauses
  | .count counter start stop body =>
      rw [Statement.declarations] at declares
      rw [Statement.targets, List.append_subset, List.append_subset] at assigns
      obtain ⟨inStart, inStop, inBody⟩ := assigns
      rw [Evaluate.execute]
      refine .bind (Framed.bound inStart) fun first => ?_
      refine .bind (Framed.bound inStop) fun last => ?_
      -- Inside the loop its counter is one of the variables that change.
      have bodyFramed : Framed declared (counter.name :: assigned)
          (Evaluate.executeAll limit body) :=
        executeAll limit declares (List.subset_cons_of_subset _ inBody)
      have roundFramed := Framed.countRound List.mem_cons_self last bodyFramed
      exact Framed.removing (Framed.rounds roundFramed limit) _
  | .loop test body =>
      rw [Statement.declarations] at declares
      rw [Statement.targets, List.append_subset] at assigns
      rw [Evaluate.execute]
      exact Framed.rounds (Framed.whileRound assigns.1 (executeAll limit declares assigns.2)) limit
  | .evaluate expression =>
      rw [Statement.targets] at assigns
      rw [Evaluate.execute]
      exact .bind (Framed.evaluate assigns) fun _ => .pure ()

/-- Clauses keep to a frame if what comes behind them does. -/
theorem executeClauses
    {declared assigned : List String}
    (limit : Nat)
    {otherwise : Run Unit}
    (otherwiseFramed : Framed declared assigned otherwise)
    {clauses : List Clause}
    (declares : ∀ declaration ∈ clauseDeclarations clauses, declaration.1.name ∈ declared)
    (assigns : clauseTargets clauses ⊆ assigned) :
    Framed declared assigned (executeClauses limit otherwise clauses) := by
  match clauses with
  | [] =>
      rw [Evaluate.executeClauses]
      exact otherwiseFramed
  | .mk test body :: rest =>
      rw [clauseDeclarations, List.forall_mem_append] at declares
      rw [clauseTargets, List.append_subset, List.append_subset] at assigns
      obtain ⟨inTest, inBody, inRest⟩ := assigns
      rw [Evaluate.executeClauses]
      refine .bind (Framed.holds inTest) fun isTrue => ?_
      cases isTrue with
      | true => exact executeAll limit declares.1 inBody
      | false => exact executeClauses limit otherwiseFramed declares.2 inRest

/-- Statements in a row keep to the frame of all of them. -/
theorem executeAll
    {declared assigned : List String}
    (limit : Nat)
    {statements : List Statement}
    (declares : ∀ declaration ∈ declarationsOf statements, declaration.1.name ∈ declared)
    (assigns : targetsOf statements ⊆ assigned) :
    Framed declared assigned (executeAll limit statements) := by
  match statements with
  | [] =>
      rw [Evaluate.executeAll]
      exact .pure ()
  | statement :: rest =>
      rw [declarationsOf, List.forall_mem_append] at declares
      rw [targetsOf, List.append_subset] at assigns
      rw [Evaluate.executeAll]
      refine .bind (execute limit declares.1 assigns.1) fun _ => ?_
      exact executeAll limit declares.2 assigns.2

end

end Framed

/-- The names that a program declares. -/
def declaredNames (statements : Program) : List String :=
  (declarationsOf statements).map fun declaration => declaration.1.name

/-- A program keeps to the frame of its own declarations and targets. -/
theorem framed_executeAll
    (limit : Nat)
    {statements : Program}
    {assigned : List String}
    (assigns : targetsOf statements ⊆ assigned) :
    Framed (declaredNames statements) assigned (executeAll limit statements) := by
  refine Framed.executeAll limit ?_ assigns
  intro declaration isDeclared
  exact List.mem_map_of_mem isDeclared

/-- However a program ends, it loses no variable, binds only names that it declares, and changes
only variables that it assigns. -/
theorem frame_program (limit : Nat) (store : Store) (statements : Program) :
    store.Frame (declaredNames statements) (targetsOf statements)
      (program limit store statements).store := by
  have final : (program limit store statements).store =
      (finalState (executeAll limit statements ⟨store, #[]⟩)).store := by
    rw [program, start]
    cases executeAll limit statements ⟨store, #[]⟩ <;> rfl
  rw [final]
  exact framed_executeAll limit (List.Subset.refl _) ⟨store, #[]⟩

/-! ## Variables that stay bound -/

/-- A run that keeps to a frame leaves a bound name bound. -/
theorem contains_of_ok
    {α : Type}
    {declared assigned : List String}
    {run : Run α}
    {state last : State}
    {value : α}
    {name : String}
    (framed : Framed declared assigned run)
    (ran : run state = .ok value last)
    (bound : state.store.contains name) :
    last.store.contains name := by
  have kept := (framed state).kept name bound
  rwa [ran] at kept

/-- A name that was required to be bound is bound. -/
theorem contains_of_requireBound
    {id : Identifier}
    {state last : State}
    (ran : requireBound id state = .ok () last) :
    last.store.contains id.name := by
  obtain rfl := requireBound_ok ran
  change (if state.store.contains id.name = true then Pure.pure ()
    else fail (.undeclared id.name) id.position : Run Unit) state = _ at ran
  split at ran
  · assumption
  · cases ran

/-- A name that has been declared is bound. -/
theorem contains_of_declare
    {id : Identifier}
    {value : Value}
    {state last : State}
    (ran : declare id value state = .ok () last) :
    last.store.contains id.name := by
  obtain ⟨store, added, rfl⟩ := declare_ok ran
  rw [Store.contains_eq, (Store.declare?_eq_some added).2, if_pos rfl]
  rfl

/-- Whenever a loop begins another round its counter is bound. -/
theorem ComesTo.contains
    {limit : Nat}
    {counter : Identifier}
    {stop : Float}
    {body : List Statement}
    {entered reached : State}
    (comesTo : ComesTo (countRound counter stop (executeAll limit body)) entered reached)
    (bound : entered.store.contains counter.name) :
    reached.store.contains counter.name := by
  induction comesTo with
  | refl => exact bound
  | tail _ stepped inductionHypothesis =>
      have stepFramed : Framed (declaredNames body) (counter.name :: targetsOf body)
          (countRound counter stop (executeAll limit body)) := by
        apply Framed.countRound List.mem_cons_self
        exact framed_executeAll limit (List.subset_cons_self _ _)
      exact contains_of_ok stepFramed stepped inductionHypothesis

/-- Some variables have been assigned, and nothing else has happened. -/
def Assigned (names : List String) (before after : State) : Prop :=
  Within [] names before after ∧ SamePrinted before after

instance (names : List String) : IsPreorder State (Assigned names) where
  refl state := ⟨refl_of _ state, rfl⟩
  trans _ _ _ first second :=
    ⟨trans_of (Within [] names) first.1 second.1, second.2.trans first.2⟩

/-- The bounds of a loop assign their variables and do nothing else. -/
theorem Assigned.bound
    {e : Expression}
    {names : List String}
    (assigns : Wrapping.targets e ⊆ names) :
    Related (Assigned names) (bound e) :=
  .bound fun _ isTarget _ _ _ changed => ⟨.of_set? changed (assigns isTarget), rfl⟩

/-- A loop whose counter is bound already fails before its body has run. -/
theorem execute_count_of_contains
    (limit : Nat)
    {counter : Identifier}
    {state : State}
    (isBound : state.store.contains counter.name)
    (start stop : Expression)
    (body : List Statement) :
    ∃ halt last, execute limit (.count counter start stop body) state = .error halt last ∧
      Assigned (Wrapping.targets start ++ Wrapping.targets stop) state last := by
  rw [execute]
  refine (Assigned.bound (List.subset_append_left _ _)).bind_fails
    fun first started startAssigns => ?_
  refine (Assigned.bound (List.subset_append_right _ _)).bind_fails
    fun second stopped stopAssigns => ?_
  -- The bounds have not taken the name away, so it cannot be declared.
  have stillBound : stopped.store.contains counter.name :=
    stopAssigns.1.kept counter.name (startAssigns.1.kept counter.name isBound)
  have refused : stopped.store.declare? counter.name (.number first) = none := if_pos stillBound
  have declares : declare counter (.number first) stopped =
      .error (.error ⟨.redeclared counter.name, some counter.position⟩) stopped := by
    rw [declare_eq, refused]
    rfl
  exact ⟨_, stopped, Stateful.bind_eq_error.mpr (.inl declares), refl_of _ stopped⟩

/-- However a run ends, no variable is lost, only declared names are new, and only assigned
variables have changed.  An assignment whose target was bound finds it bound still when the
value is there, and a loop finds its counter bound in every round, before the body and after
it.  A loop over a name that is bound already fails before its body has run: it has printed
nothing, and only what its bounds assign has changed. -/
theorem variables_kept (limit : Nat) (store : Store) (statements : Program) :
    store.Frame (declaredNames statements) (targetsOf statements)
      (program limit store statements).store ∧
    (∀ target expression state checked value last,
      requireBound target state = .ok () checked →
      evaluate expression checked = .ok value last →
      (last.store.set? target.name value).isSome) ∧
    (∀ counter first stop body state entered reached,
      declare counter (.number first) state = .ok () entered →
      ComesTo (countRound counter stop (executeAll limit body)) entered reached →
      reached.store.contains counter.name ∧
        ∀ last, executeAll limit body reached = .ok () last →
          last.store.contains counter.name) ∧
    ∀ counter start stop body state, state.store.contains counter.name →
      ∃ halt last, execute limit (.count counter start stop body) state = .error halt last ∧
        state.store.Frame [] (Wrapping.targets start ++ Wrapping.targets stop) last.store ∧
        last.printed = state.printed := by
  refine ⟨frame_program limit store statements, ?_, ?_, ?_⟩
  · intro target expression state checked value last isBound evaluated
    have bound : last.store.contains target.name :=
      contains_of_ok (Framed.evaluate (List.Subset.refl _) : Framed [] _ _) evaluated
        (contains_of_requireBound isBound)
    rw [Store.set?, if_pos bound]
    rfl
  · intro counter first stop body state entered reached declared comesTo
    have bound := comesTo.contains (contains_of_declare declared)
    refine ⟨bound, fun last ran => ?_⟩
    exact contains_of_ok (framed_executeAll limit (List.Subset.refl _)) ran bound
  · intro counter start stop body state isBound
    exact execute_count_of_contains limit isBound start stop body

/-- Two loops, one in the other, that declare and assign a variable and then read one that is
not there. -/
def failingLoops : Program :=
  let number (value : Float) := Expression.literal (.number value) ⟨1, 1⟩
  let named (name : String) : Identifier := ⟨name, ⟨1, 1⟩⟩
  [.count (named "i") (number 0) (number 2)
    [.count (named "j") (number 0) (number 2)
      [.declare (named "t") (some (number 1)),
        .evaluate (.assign (named "x") (.name (named "j"))),
        .print (.name (named "y")) ⟨1, 1⟩]]]

/-- A loop whose body gives its counter another value. -/
def countingLoop (name : String) : Statement :=
  .count ⟨name, ⟨1, 1⟩⟩ (.literal (.number 0) ⟨1, 2⟩) (.literal (.number 2) ⟨1, 3⟩)
    [.evaluate (.assign ⟨name, ⟨1, 4⟩⟩ (.literal (.boolean true) ⟨1, 5⟩))]

/-- The two loops fail, and leave neither counter behind.  A loop over a bound name leaves the
name its value, which its body would change. -/
theorem variables_kept_failingLoops :
    (program 3 ⟨[("x", .null)]⟩ failingLoops).halt.isSome ∧
      (program 3 ⟨[("x", .null)]⟩ failingLoops).store.contains "x" ∧
      (∀ name, (program 3 ⟨[("x", .null)]⟩ failingLoops).store.contains name →
        name = "x" ∨ name = "t") ∧
      ∃ halt last, execute 3 (countingLoop "x") ⟨⟨[("x", .null)]⟩, #[]⟩ = .error halt last ∧
        last.store.get? "x" = some .null := by
  obtain ⟨frame, -, -, overBound⟩ := variables_kept 3 ⟨[("x", .null)]⟩ failingLoops
  refine ⟨by decide, frame.kept "x" (by decide), fun name bound => ?_, ?_⟩
  · rcases frame.fresh name bound with before | isDeclared
    · left
      by_contra different
      have other : (name == "x") = false := by simpa using different
      simp [Store.contains_eq, Store.get?, List.lookup_cons, other] at before
    · right
      simpa [declaredNames, failingLoops, declarationsOf, Statement.declarations] using isDeclared
  · have isBound : Store.contains ⟨[("x", .null)]⟩ "x" := rfl
    obtain ⟨halt, last, failed, kept, -⟩ := overBound ⟨"x", ⟨1, 1⟩⟩ _ _ _
      ⟨⟨[("x", .null)]⟩, #[]⟩ isBound
    exact ⟨halt, last, failed, kept.unchanged "x" isBound (by simp [Wrapping.targets])⟩

end Evaluate
end Pictogram
