import Pictogram.Proofs.Number.Integer
import Pictogram.Proofs.Source.Frame
import Pictogram.Proofs.Source.Relabel

/-!
# Counted loops

A loop that counts from one integer to another runs its body once for each integer from the
first on that is less than the last, with the counter bound to it.  The first run that ends
early ends the loop.  Afterwards the counter is gone.
-/

namespace Pictogram

/-! ## Binding a variable, new or not -/

namespace Store

/-- The store with a value for a variable, which need not be bound before. -/
def put (store : Store) (name : String) (value : Value) : Store :=
  match store.set? name value with
  | some changed => changed
  | none => ⟨(name, value) :: store.bindings⟩

variable {store after : Store} {name : String} {value : Value}

theorem put_of_set? (changed : store.set? name value = some after) :
    store.put name value = after := by
  rw [put, changed]

/-- A bound variable can be given a value. -/
theorem set?_of_contains (bound : store.contains name) (value : Value) :
    store.set? name value = some (store.put name value) := by
  cases changed : store.set? name value with
  | some after => rw [put_of_set? changed]
  | none =>
      rw [contains_eq, set?_eq_none changed] at bound
      cases bound

theorem get?_put (store : Store) (name : String) (value : Value) :
    (store.put name value).get? name = some value := by
  unfold put
  split
  · rename_i changed
    rw [(set?_eq_some changed).2, if_pos rfl]
  · simp [get?]

theorem filter_map_value (bindings : List (String × Value)) (name : String) (value : Value) :
    (bindings.map fun (bound, old) => (bound, if bound = name then value else old)).filter
        (fun (bound, _) => bound ≠ name) =
      bindings.filter fun (bound, _) => bound ≠ name := by
  induction bindings with
  | nil => rfl
  | cons binding rest inductionHypothesis =>
      obtain ⟨bound, old⟩ := binding
      by_cases same : bound = name
      · rw [List.map_cons, List.filter_cons_of_neg (by simpa using same),
          List.filter_cons_of_neg (by simpa using same), inductionHypothesis]
      · rw [List.map_cons, List.filter_cons_of_pos (by simpa using same),
          List.filter_cons_of_pos (by simpa using same), inductionHypothesis]
        simp [same]

/-- A value does not matter once its variable is removed. -/
theorem remove_put (store : Store) (name : String) (value : Value) :
    (store.put name value).remove name = store.remove name := by
  by_cases bound : store.contains name
  · have changed := set?_of_contains bound value
    rw [set?, if_pos bound] at changed
    rw [← Option.some.inj changed, remove, filter_map_value, remove]
  · rw [put, set?, if_neg bound]
    simp [remove]

end Store

namespace Evaluate

/-! ## Runs after other output -/

/-- How a run ends that leaves this behind, after lines have been printed. -/
def result (printed : Array String) (report : RunReport) : EStateM.Result Halt State Unit :=
  match report.halt with
  | none => .ok () ⟨report.store, printed ++ report.lines.toArray⟩
  | some halt => .error halt ⟨report.store, printed ++ report.lines.toArray⟩

theorem result_append (printed : Array String) (lines : List String) (report : RunReport) :
    result (printed ++ lines.toArray) report =
      result printed { report with lines := lines ++ report.lines } := by
  obtain ⟨store, later, halt⟩ := report
  cases halt <;> simp [result]

theorem finalState_result (printed : Array String) (report : RunReport) :
    finalState (result printed report) = ⟨report.store, printed ++ report.lines.toArray⟩ := by
  obtain ⟨store, lines, halt⟩ := report
  cases halt <;> rfl

/-- What has been printed before makes no difference to a program. -/
theorem executeAll_eq
    (limit : Nat)
    (statements : Program)
    (store : Store)
    (printed : Array String) :
    executeAll limit statements ⟨store, printed⟩ =
      result printed (program limit store statements) := by
  have carried : (relabelled (.moving id) printed).Carries id _ _ :=
    carries_executeAll Function.injective_id limit statements
  have begun : (⟨store, printed⟩ : State) =
      (relabelled (.moving id) printed).state ⟨store, #[]⟩ := by
    simp [relabelled, Relabel.moving, Store.rename_id]
  rw [Program.relabel_moving_id] at carried
  rw [begun, carried, program, start]
  cases executeAll limit statements ⟨store, #[]⟩ with
  | ok value last => simp [Translation.result, relabelled, Relabel.moving, Store.rename_id, result]
  | error halt last =>
      simp [Translation.result, relabelled, Relabel.moving, Store.rename_id, result]
      exact Halt.relabel_moving_id halt

/-! ## The body of a loop, run again and again -/

/-- Runs a body once for each number, with a variable bound to it, until a run ends early. -/
def runForEach (limit : Nat) (name : String) (body : Program) : List Float → Store → RunReport
  | [], store => ⟨store, [], none⟩
  | number :: rest, store =>
    let first := program limit (store.put name (.number number)) body
    match first.halt with
    | some halt => ⟨first.store, first.lines, some halt⟩
    | none =>
      let later := runForEach limit name body rest first.store
      ⟨later.store, first.lines ++ later.lines, later.halt⟩

section Round

variable {counter : Identifier} {number last : Float} {store : Store}

theorem counterValue_eq
    {state : State}
    (holds : state.store.get? counter.name = some (.number number)) :
    counterValue counter state = .ok number state := by
  show EStateM.bind (lookUp counter) _ state = _
  rw [EStateM.bind, lookUp_eq, holds]
  rfl

/-- A round that finds the counter at the end. -/
theorem countRound_stop
    {body : Run Unit}
    {state : State}
    (holds : state.store.get? counter.name = some (.number number))
    (atEnd : ¬number < last) :
    countRound counter last body state = .ok false state := by
  show EStateM.bind (counterValue counter) _ state = _
  rw [EStateM.bind, counterValue_eq holds]
  simp only [if_neg atEnd]
  rfl

/-- A round runs the body, and if that comes to its end the counter steps on. -/
theorem countRound_run
    (limit : Nat)
    {body : Program}
    (holds : store.get? counter.name = some (.number number))
    (inside : number < last)
    (notAssigned : counter.name ∉ targetsOf body)
    (printed : Array String) :
    countRound counter last (executeAll limit body) ⟨store, printed⟩ =
      let report := program limit store body
      match report.halt with
      | none =>
        .ok true ⟨report.store.put counter.name (.number (number + 1.0)),
          printed ++ report.lines.toArray⟩
      | some halt => .error halt ⟨report.store, printed ++ report.lines.toArray⟩ := by
  have bound : store.contains counter.name := by
    rw [Store.contains_eq, holds]
    rfl
  have frame := frame_program limit store body
  have stillHolds := frame.unchanged counter.name bound notAssigned
  have stillBound := frame.kept counter.name bound
  rw [holds] at stillHolds
  show EStateM.bind (counterValue counter) _ _ = _
  rw [EStateM.bind, counterValue_eq holds]
  simp only [if_pos inside]
  show EStateM.bind (executeAll limit body) _ _ = _
  rw [EStateM.bind, executeAll_eq, result]
  generalize program limit store body = report at stillHolds stillBound
  cases report.halt with
  | some halt => rfl
  | none =>
      show EStateM.bind (counterValue counter) _ _ = _
      rw [EStateM.bind, counterValue_eq stillHolds]
      show EStateM.Result.ok true (⟨(report.store.set? counter.name
        (.number (number + 1.0))).getD report.store, _⟩ : State) = _
      rw [Store.set?_of_contains stillBound]
      rfl

end Round

/-- A loop that may take one more round stops, or takes it and goes on. -/
theorem rounds_succ (step : Run Bool) (more : Nat) (state : State) :
    rounds step (more + 1) state =
      match step state with
      | .ok true next => rounds step more next
      | .ok false next => .ok () next
      | .error halt next => .error halt next := by
  rw [rounds]
  show EStateM.bind _ _ _ = _
  unfold EStateM.bind
  cases step state with
  | error halt next => rfl
  | ok again next => cases again <;> rfl

/-- What a run leaves behind, without a variable. -/
def without (name : String) (report : RunReport) : RunReport :=
  { report with store := report.store.remove name }

/-- All rounds of a loop together, and the end of its counter. -/
theorem removing_rounds
    {limit : Nat}
    {counter : Identifier}
    {body : Program}
    {last : Float}
    {stop : Int}
    (isLast : Number.IsExactly last stop)
    (most : stop ≤ 2 ^ 53)
    (notAssigned : counter.name ∉ targetsOf body)
    {rounds : Nat}
    {number : Float}
    {value : Int}
    (is : Number.IsExactly number value)
    (least : -2 ^ 53 ≤ value)
    (enough : (stop - value).toNat < rounds)
    (store : Store)
    (printed : Array String) :
    removing counter.name
        (Evaluate.rounds (countRound counter last (executeAll limit body)) rounds)
        ⟨store.put counter.name (.number number), printed⟩ =
      result printed (without counter.name (runForEach limit counter.name body
        (List.iterate (· + 1.0) number (stop - value).toNat) store)) := by
  induction rounds generalizing number value store printed with
  | zero => cases enough
  | succ more inductionHypothesis =>
      have holds := store.get?_put counter.name (.number number)
      by_cases inside : value < stop
      · have countIs : (stop - value).toNat = (stop - (value + 1)).toNat + 1 := by omega
        have less := (is.lt_iff isLast).mpr inside
        rw [removing, rounds_succ, countRound_run limit holds less notAssigned, countIs,
          List.iterate, runForEach]
        generalize program limit (store.put counter.name (.number number)) body = report
        obtain ⟨reached, lines, halt⟩ := report
        cases halt with
        | some halt => rfl
        | none =>
            have later := inductionHypothesis (is.add_one least (by omega)) (by omega) (by omega)
              reached (printed ++ lines.toArray)
            rw [result_append] at later
            exact later
      · have none : (stop - value).toNat = 0 := by omega
        have atEnd : ¬number < last := fun less => inside ((is.lt_iff isLast).mp less)
        rw [removing, rounds_succ, countRound_stop holds atEnd, none]
        simp [Store.remove_put, result, without, runForEach]

/-- Adding one is exact as long as the sum has at most 53 bits. -/
theorem isExactly_iterate
    {number : Float}
    {value : Int}
    (is : Number.IsExactly number value)
    (least : -2 ^ 53 ≤ value)
    {steps : Nat}
    (most : value + steps ≤ 2 ^ 53) :
    Number.IsExactly ((· + 1.0)^[steps] number) (value + steps) := by
  induction steps with
  | zero => simpa using is
  | succ before inductionHypothesis =>
      rw [Function.iterate_succ_apply', Nat.cast_succ, ← Int.add_assoc]
      exact (inductionHypothesis (by omega)).add_one (by omega) (by omega)

theorem bound_eq
    {e : Expression}
    {state last : State}
    {number : Float}
    (ran : evaluate e state = .ok (.number number) last) :
    bound e state = .ok number last := by
  show EStateM.bind (evaluate e) _ state = _
  rw [EStateM.bind, ran]
  rfl

/-- An expression binds no name. -/
theorem contains_of_evaluate
    {e : Expression}
    {state last : State}
    {value : Value}
    {name : String}
    (ran : evaluate e state = .ok value last)
    (bound : last.store.contains name) :
    state.store.contains name := by
  have framed : Framed [] _ (evaluate e) := Framed.evaluate (List.Subset.refl _)
  have frame := framed state
  rw [ran] at frame
  rcases frame.fresh name bound with before | isDeclared
  · exact before
  · cases isDeclared

/-- A loop whose bounds are numbers begins with its counter at the first. -/
theorem execute_count_eq
    {limit : Nat}
    {counter : Identifier}
    {start stop : Expression}
    {body : Program}
    {state started stopped : State}
    {first last : Float}
    (free : stopped.store.contains counter.name = false)
    (begins : evaluate start state = .ok (.number first) started)
    (ends : evaluate stop started = .ok (.number last) stopped) :
    execute limit (.count counter start stop body) state =
      removing counter.name (rounds (countRound counter last (executeAll limit body)) limit)
        ⟨stopped.store.put counter.name (.number first), stopped.printed⟩ := by
  have added : stopped.store.declare? counter.name (.number first) =
      some (stopped.store.put counter.name (.number first)) := by
    rw [Store.declare?, free, Store.put, Store.set?, free]
    rfl
  rw [execute]
  show EStateM.bind (bound start) _ state = _
  rw [EStateM.bind, bound_eq begins]
  show EStateM.bind (bound stop) _ started = _
  rw [EStateM.bind, bound_eq ends]
  show EStateM.bind (declare counter _) _ stopped = _
  rw [EStateM.bind, declare_eq, added]
  rfl

/-- A loop from one integer to another, with a counter that is not bound and that the body does
not assign, runs the body once for each integer from the first on that is less than the last, on
the store that the bounds leave.  The first run that ends early ends the loop, and the counter is
not bound afterwards.  The default number of rounds is always enough. -/
theorem execute_count
    {limit : Nat}
    {counter : Identifier}
    {start stop : Expression}
    {body : Program}
    {state started stopped : State}
    {first last : Float}
    {low high : Int}
    (free : state.store.contains counter.name = false)
    (begins : evaluate start state = .ok (.number first) started)
    (ends : evaluate stop started = .ok (.number last) stopped)
    (isFirst : Number.IsExactly first low)
    (isLast : Number.IsExactly last high)
    (lowInRange : low.natAbs ≤ 2 ^ 53)
    (highInRange : high.natAbs ≤ 2 ^ 53)
    (notAssigned : counter.name ∉ targetsOf body)
    (enough : (high - low).toNat < limit) :
    let numbers := List.iterate (· + 1.0) first (high - low).toNat
    let loop := execute limit (.count counter start stop body) state
    (high - low).toNat < patience ∧
      (∀ (index : Nat) (inside : index < numbers.length),
        Number.IsExactly numbers[index] (low + index)) ∧
      loop = result state.printed
        (without counter.name (runForEach limit counter.name body numbers stopped.store)) ∧
      (finalState loop).store.contains counter.name = false := by
  intro numbers loop
  have stillFree : stopped.store.contains counter.name = false := by
    rw [Bool.eq_false_iff] at free ⊢
    exact fun bound => free (contains_of_evaluate begins (contains_of_evaluate ends bound))
  have loopIs : loop = result state.printed
      (without counter.name (runForEach limit counter.name body numbers stopped.store)) := by
    show execute limit (.count counter start stop body) state = _
    rw [execute_count_eq stillFree begins ends, evaluate_printed ends, evaluate_printed begins]
    exact removing_rounds isLast (by omega) notAssigned isFirst (by omega) enough _ _
  refine ⟨by unfold patience; omega, ?_, loopIs, ?_⟩
  · intro index inside
    rw [List.length_iterate] at inside
    rw [List.getElem_iterate]
    exact isExactly_iterate isFirst (by omega) (by omega)
  · rw [loopIs, finalState_result, Store.contains_eq]
    simp only [without, Store.get?_remove, if_true]
    rfl

/-- The body of a loop that prints its counter. -/
def printsCounter : Program := [.print (.name ⟨"v", .origin⟩) .origin]

/-- Up to the greatest integer of the range the counter is exact. -/
theorem execute_count_edge :
    Number.IsExactly 9007199254740990 (2 ^ 53 - 2) ∧
      Number.IsExactly 9007199254740992 (2 ^ 53) ∧
      execute 3 (.count ⟨"v", .origin⟩ (.literal (.number 9007199254740990) .origin)
          (.literal (.number 9007199254740992) .origin) printsCounter) ⟨.empty, #[]⟩ =
        result #[] (without "v" (runForEach 3 "v" printsCounter
          [9007199254740990, 9007199254740990 + 1.0] .empty)) := by
  have isFirst : Number.IsExactly 9007199254740990 (2 ^ 53 - 2) := by
    have taken : (9007199254740990 : Float).toModel.unpack =
        .finite .positive (2 ^ 53 - 2) 0 (by decide) := rfl
    rw [Number.IsExactly, taken]
    norm_num [Number.rational?, Float.Model.UnpackedFloat.Sign.apply]
  have isLast : Number.IsExactly 9007199254740992 (2 ^ 53) := by
    have taken : (9007199254740992 : Float).toModel.unpack =
        .finite .positive (2 ^ 52) 1 (by decide) := rfl
    rw [Number.IsExactly, taken]
    norm_num [Number.rational?, Float.Model.UnpackedFloat.Sign.apply]
  have begins : evaluate (.literal (.number 9007199254740990) .origin) ⟨.empty, #[]⟩ =
      .ok (.number 9007199254740990) ⟨.empty, #[]⟩ := rfl
  have ends : evaluate (.literal (.number 9007199254740992) .origin) ⟨.empty, #[]⟩ =
      .ok (.number 9007199254740992) ⟨.empty, #[]⟩ := rfl
  have notAssigned : (⟨"v", .origin⟩ : Identifier).name ∉ targetsOf printsCounter := by decide
  have enough : ((2 ^ 53 : Int) - (2 ^ 53 - 2)).toNat < 3 := by decide
  exact ⟨isFirst, isLast, (execute_count rfl begins ends isFirst isLast (by decide) (by decide)
    notAssigned enough).2.2.1⟩

end Evaluate
end Pictogram
