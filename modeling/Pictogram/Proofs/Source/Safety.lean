import Pictogram.Proofs.Code.Acceptance
import Pictogram.Proofs.Code.Main
import Pictogram.Proofs.Source.Run
import Pictogram.Proofs.Source.Store

/-!
# Programs with a class do not go wrong

A program that the generator accepts combines, negates and counts only values that
can be combined, negated and counted, however it is run.  All that may still go
wrong is that a name is not bound, because its declaration has been skipped, or
bound already, because its declaration has been run before; and neither happens
if all declarations are outside conditionals and loops.

The scope that the generator has at a place is not the store that a run has there.
What holds of every store is that the values of all names, in scope or not, are of
the types that their slots have: that is what a view says.
-/

namespace Pictogram
namespace Evaluate

open Pictogram.Class (Pool)
open Pictogram.Compile (StaticType Slots Local Tree ExpressionTree OperationTree Part PartTree
  remaining)

/-- A value that the generator's type describes. -/
inductive HasType : Value → StaticType → Prop
  | number (value : Float) : HasType (.number value) .int
  | boolean (value : Bool) : HasType (.boolean value) .boolean
  | string (text : String) : HasType (.string text) .string

/-- The store of a run against the scope at the same place.  If `exact` holds, the
names bound are those in scope. -/
structure Matches
    (exact : Prop)
    (slots : Slots)
    (view : String → Option Local)
    (store : Store) : Prop where
  /-- Values are of the types of the slots of their names. -/
  typed : ∀ {name value}, store.get? name = some value →
    ∃ found, view name = some found ∧ HasType value found.type
  /-- Names bound are those in scope. -/
  bound : exact → ∀ name, (store.get? name).isSome = (slots.resolve? name).isSome

/-- An error that a name is not bound, or bound already. -/
def IsBinding (error : Error) : Prop :=
  (∃ name, error.fault = .undeclared name) ∨ ∃ name, error.fault = .redeclared name

/-- The errors that are left: about names, and none at all if the names bound are
those in scope. -/
def Remaining (exact : Prop) (error : Error) : Prop := ¬exact ∧ IsBinding error

namespace Matches

variable {exact : Prop} {slots : Slots} {view : String → Option Local} {store after : Store}
  {name : String} {value : Value} {found : Local}

/-- Another value of the same type may be given to a name in scope. -/
theorem set
    (fits : Matches exact slots view store)
    (viewed : view name = some found)
    (ofType : HasType value found.type)
    (changed : store.set? name value = some after) :
    Matches exact slots view after := by
  obtain ⟨wasBound, reads⟩ := Store.set?_eq_some changed
  constructor
  · intro other otherValue read
    rw [reads] at read
    split at read
    · rename_i same
      obtain rfl := Option.some.inj read
      exact ⟨found, same ▸ viewed, ofType⟩
    · exact fits.typed read
  · intro isExact other
    rw [← fits.bound isExact other, reads]
    split
    · rename_i same
      rw [same, wasBound]
      rfl
    · rfl

/-- A name may be bound to a value of the type that it is declared with. -/
theorem declare
    {after' : Slots}
    (fits : Matches exact slots view store)
    (viewed : view name = some found)
    (ofType : HasType value found.type)
    (scope : ∀ other, after'.resolve? other =
      if name = other then some found else slots.resolve? other)
    (declared : store.declare? name value = some after) :
    Matches exact after' view after := by
  obtain ⟨-, reads⟩ := Store.declare?_eq_some declared
  constructor
  · intro other otherValue read
    rw [reads] at read
    split at read
    · rename_i same
      obtain rfl := Option.some.inj read
      exact ⟨found, same ▸ viewed, ofType⟩
    · exact fits.typed read
  · intro isExact other
    rw [scope, reads]
    by_cases same : other = name
    · simp [same]
    · rw [if_neg same, if_neg fun equal => same equal.symm, fits.bound isExact other]

/-- Only the names in scope matter. -/
theorem scope
    {other : Slots}
    (fits : Matches exact slots view store)
    (same : exact → other.resolve? = slots.resolve?) :
    Matches exact other view store where
  typed := fits.typed
  bound := fun isExact name => by rw [fits.bound isExact name, same isExact]

/-- A name that is not bound may stand for any slot. -/
theorem updateView
    (fits : Matches exact slots view store)
    (unbound : store.get? name = none)
    (other : Option Local) :
    Matches exact slots (Function.update view name other) store where
  typed := by
    intro bound value read
    have different : bound ≠ name := by
      rintro rfl
      rw [unbound] at read
      cases read
    rw [Function.update_of_ne different]
    exact fits.typed read
  bound := fits.bound

/-- The counter of a loop is gone when the loop has ended, whatever slot its name
stood for. -/
theorem remove
    {other : Option Local}
    (fits : Matches exact slots (Function.update view name other) store) :
    Matches exact (slots.remove name) view (store.remove name) where
  typed := by
    intro bound value read
    rw [Store.get?_remove] at read
    split at read
    · cases read
    · rename_i different
      have viewed := fits.typed read
      rwa [Function.update_of_ne different] at viewed
  bound := by
    intro isExact bound
    rw [Store.get?_remove, Slots.resolve?_remove]
    split
    · rfl
    · exact fits.bound isExact bound

end Matches

section Steps

variable {exact : Prop} {slots : Slots} {view : String → Option Local} {state : State}
  {id : Identifier} {found : Local}

/-- A name in scope may be unbound only if the names bound are not those in scope. -/
theorem undeclared_remaining
    (fits : Matches exact slots view state.store)
    (resolved : slots.resolve? id.name = some found)
    (unbound : state.store.get? id.name = none) :
    Remaining exact ⟨.undeclared id.name, some id.position⟩ := by
  refine ⟨fun isExact => ?_, .inl ⟨_, rfl⟩⟩
  have same := fits.bound isExact id.name
  rw [unbound, resolved] at same
  cases same

/-- A name in scope that is bound has a value of its type. -/
theorem lookUp_ends
    (seen : slots.View view)
    (fits : Matches exact slots view state.store)
    (resolved : slots.resolve? id.name = some found) :
    Ends (Remaining exact)
      (fun value last => HasType value found.type ∧ Matches exact slots view last.store)
      (lookUp id state) := by
  rw [lookUp_eq]
  cases read : state.store.get? id.name with
  | none => exact undeclared_remaining fits resolved read
  | some value =>
      obtain ⟨known, viewed, ofType⟩ := fits.typed read
      rw [seen.known resolved] at viewed
      obtain rfl := Option.some.inj viewed
      exact ⟨ofType, fits⟩

theorem requireBound_ends
    (fits : Matches exact slots view state.store)
    (resolved : slots.resolve? id.name = some found) :
    Ends (Remaining exact) (fun _ last => Matches exact slots view last.store)
      (requireBound id state) := by
  show Ends _ _ ((if state.store.contains id.name = true then Pure.pure ()
    else fail (.undeclared id.name) id.position : Run Unit) state)
  split
  · exact fits
  · rename_i unbound
    exact undeclared_remaining fits resolved (by simpa [Store.contains_eq] using unbound)

/-- A value of the right type can be assigned to a name in scope that is bound. -/
theorem assign_ends
    {value : Value}
    (seen : slots.View view)
    (fits : Matches exact slots view state.store)
    (resolved : slots.resolve? id.name = some found)
    (ofType : HasType value found.type) :
    Ends (Remaining exact) (fun _ last => Matches exact slots view last.store)
      (assign id value state) := by
  rw [assign_eq]
  cases changed : state.store.set? id.name value with
  | none => exact undeclared_remaining fits resolved (Store.set?_eq_none changed)
  | some store => exact fits.set (seen.known resolved) ofType changed

/-- An operation that the generator accepts has a value of the type it states. -/
theorem operate_ok
    {operator : BinaryOperator}
    {leftType rightType type : StaticType}
    {tree : Tree}
    {left right : Value}
    (code : OperationTree operator leftType rightType type tree)
    (leftTyped : HasType left leftType)
    (rightTyped : HasType right rightType)
    (position : Position) :
    ∃ value, operate operator left right position = .ok value ∧ HasType value type := by
  cases code with
  | integer known =>
      cases leftTyped
      cases rightTyped
      cases operator <;> cases known <;> exact ⟨_, rfl, .number _⟩
  | ordering known =>
      cases leftTyped
      cases rightTyped
      cases operator <;> cases known <;> exact ⟨_, rfl, .boolean _⟩
  | boolean known =>
      cases leftTyped
      cases rightTyped
      cases operator <;> cases known <;> exact ⟨_, rfl, .boolean _⟩
  | equality notText =>
      cases leftTyped with
      | number => cases rightTyped; exact ⟨_, rfl, .boolean _⟩
      | boolean => cases rightTyped; exact ⟨_, rfl, .boolean _⟩
      | string => exact absurd rfl notText

/-- An expression that the generator accepts has a value of the type it states,
unless a name is not bound. -/
theorem evaluate_ends
    {pool : Pool}
    {e : Expression}
    {type : StaticType}
    {tree : Tree}
    (code : ExpressionTree pool slots e type tree)
    (seen : slots.View view)
    (fits : Matches exact slots view state.store) :
    Ends (Remaining exact)
      (fun value last => HasType value type ∧ Matches exact slots view last.store)
      (evaluate e state) := by
  induction code generalizing state with
  | number _ _ => exact ⟨.number _, fits⟩
  | string _ => exact ⟨.string _, fits⟩
  | boolean _ => exact ⟨.boolean _, fits⟩
  | name resolved => exact lookUp_ends seen fits resolved
  | negate _ argumentEnds =>
      refine .bind (argumentEnds fits) fun value middle ⟨ofType, middleFits⟩ => ?_
      cases ofType with
      | number value => exact ⟨.number _, middleFits⟩
  | @binary _ _ _ position _ _ _ _ _ _ _ _ operation leftEnds rightEnds =>
      refine .bind (leftEnds fits) fun left middle ⟨leftTyped, middleFits⟩ => ?_
      refine .bind (rightEnds middleFits) fun right last ⟨rightTyped, lastFits⟩ => ?_
      obtain ⟨value, operated, ofType⟩ := operate_ok operation leftTyped rightTyped position
      rw [operated]
      exact ⟨ofType, lastFits⟩
  | assign resolved _ valueEnds =>
      refine .bind (requireBound_ends fits resolved) fun _ middle middleFits => ?_
      refine .bind (valueEnds middleFits) fun value last ⟨ofType, lastFits⟩ => ?_
      refine .bind (assign_ends seen lastFits resolved ofType) fun _ stored storedFits => ?_
      exact ⟨ofType, storedFits⟩

/-- A name that is not in scope may be bound only if the names bound are not those in scope. -/
theorem redeclared_remaining
    (fits : Matches exact slots view state.store)
    (free : slots.resolve? id.name = none)
    (bound : (state.store.get? id.name).isSome) :
    Remaining exact ⟨.redeclared id.name, some id.position⟩ := by
  refine ⟨fun isExact => ?_, .inr ⟨_, rfl⟩⟩
  have same := fits.bound isExact id.name
  rw [bound, free] at same
  cases same

theorem requireFree_ends
    (fits : Matches exact slots view state.store)
    (free : slots.resolve? id.name = none) :
    Ends (Remaining exact) (fun _ last => Matches exact slots view last.store)
      (requireFree id state) := by
  show Ends _ _ ((if state.store.contains id.name = true then
    fail (.redeclared id.name) id.position else Pure.pure () : Run Unit) state)
  split
  · rename_i bound
    exact redeclared_remaining fits free bound
  · exact fits

/-- A name that is not in scope is declared with a value of its type, if it is free. -/
theorem declare_ends
    {after : Slots}
    {value : Value}
    (fits : Matches exact slots view state.store)
    (free : slots.resolve? id.name = none)
    (viewed : view id.name = some found)
    (ofType : HasType value found.type)
    (scope : ∀ other, after.resolve? other =
      if id.name = other then some found else slots.resolve? other) :
    Ends (Remaining exact)
      (fun _ last => Matches exact after view last.store) (declare id value state) := by
  rw [declare_eq]
  cases declared : state.store.declare? id.name value with
  | none => exact redeclared_remaining fits free (Store.declare?_eq_none declared)
  | some store => exact fits.declare viewed ofType scope declared

/-- The bound of a loop is a number if its code is of integers. -/
theorem bound_ends
    {pool : Pool}
    {e : Expression}
    {tree : Tree}
    (code : ExpressionTree pool slots e .int tree)
    (seen : slots.View view)
    (fits : Matches exact slots view state.store) :
    Ends (Remaining exact) (fun _ last => Matches exact slots view last.store)
      (bound e state) := by
  refine .bind (evaluate_ends code seen fits) fun value last ⟨ofType, lastFits⟩ => ?_
  cases ofType with
  | number value => exact lastFits

/-- A test comes to no other error than those that are left, whatever its type is. -/
theorem holds_ends
    {pool : Pool}
    {e : Expression}
    {type : StaticType}
    {tree : Tree}
    (code : ExpressionTree pool slots e type tree)
    (seen : slots.View view)
    (fits : Matches exact slots view state.store) :
    Ends (Remaining exact) (fun _ last => Matches exact slots view last.store)
      (holds e state) :=
  .bind (evaluate_ends code seen fits) fun _ _ ⟨_, lastFits⟩ => lastFits

theorem counterValue_ends
    (seen : slots.View view)
    (fits : Matches exact slots view state.store)
    (resolved : slots.resolve? id.name = some found)
    (ofInt : found.type = .int) :
    Ends (Remaining exact) (fun _ last => Matches exact slots view last.store)
      (counterValue id state) := by
  refine .bind (lookUp_ends seen fits resolved) fun value last ⟨ofType, lastFits⟩ => ?_
  rw [ofInt] at ofType
  cases ofType with
  | number value => exact lastFits

/-- One round of a loop with a test, given what its body does. -/
theorem whileRound_ends
    {pool : Pool}
    {after : Slots}
    {test : Expression}
    {type : StaticType}
    {tree : Tree}
    {body : Run Unit}
    (code : ExpressionTree pool slots test type tree)
    (seen : slots.View view)
    (same : exact → after.resolve? = slots.resolve?)
    (bodyEnds : ∀ state : State, Matches exact slots view state.store →
      Ends (Remaining exact) (fun _ last => Matches exact after view last.store) (body state))
    (fits : Matches exact slots view state.store) :
    Ends (Remaining exact) (fun _ last => Matches exact slots view last.store)
      (whileRound test body state) := by
  refine .bind (holds_ends code seen fits) fun isTrue middle middleFits => ?_
  cases isTrue with
  | true =>
      refine .bind (bodyEnds middle middleFits) fun _ last lastFits => ?_
      exact lastFits.scope fun isExact => (same isExact).symm
  | false => exact middleFits

/-- One round of a counted loop, given what its body does. -/
theorem countRound_ends
    {after : Slots}
    (stop : Float)
    {body : Run Unit}
    (seen : after.View view)
    (grows : slots.Grows after)
    (resolved : slots.resolve? id.name = some found)
    (ofInt : found.type = .int)
    (same : exact → after.resolve? = slots.resolve?)
    (bodyEnds : ∀ state : State, Matches exact slots view state.store →
      Ends (Remaining exact) (fun _ last => Matches exact after view last.store) (body state))
    (fits : Matches exact slots view state.store) :
    Ends (Remaining exact) (fun _ last => Matches exact slots view last.store)
      (countRound id stop body state) := by
  refine .bind (counterValue_ends (seen.before grows) fits resolved ofInt)
    fun value middle middleFits => ?_
  split
  · refine .bind (bodyEnds middle middleFits) fun _ last lastFits => ?_
    refine .bind (counterValue_ends seen lastFits (grows.kept resolved) ofInt)
      fun value counted countedFits => ?_
    -- The counter is still bound, to a number, and is given the next one.
    have stepped : Matches exact after view
        ((counted.store.set? id.name (.number (value + 1.0))).getD counted.store) := by
      cases changed : counted.store.set? id.name (.number (value + 1.0)) with
      | none => exact countedFits
      | some store =>
          exact countedFits.set (seen.known (grows.kept resolved)) (ofInt ▸ .number _) changed
    exact stepped.scope fun isExact => (same isExact).symm
  · exact middleFits

/-- The counter of a loop is declared, whatever slot its name stands for outside the
loop. -/
theorem declareCounter_ends
    {after : Slots}
    {start : Float}
    (fits : Matches exact slots view state.store)
    (free : slots.resolve? id.name = none)
    (ofInt : found.type = .int)
    (scope : ∀ other, after.resolve? other =
      if id.name = other then some found else slots.resolve? other) :
    Ends (Remaining exact)
      (fun _ last => Matches exact after (Function.update view id.name (some found)) last.store)
      (declare id (.number start) state) := by
  rw [declare_eq]
  cases declared : state.store.declare? id.name (.number start) with
  | none => exact redeclared_remaining fits free (Store.declare?_eq_none declared)
  | some store =>
      obtain ⟨unbound, -⟩ := Store.declare?_eq_some declared
      exact (fits.updateView unbound (some found)).declare (Function.update_self _ _ _)
        (ofInt ▸ .number start) scope declared

end Steps

/-- No declaration of the part is inside a conditional or a loop. -/
def FlatPart : Part → Prop
  | .one statement => (∃ id init, statement = .declare id init) ∨ statement.declarations = []
  | .all statements => DeclaresOnTop statements

/-- Statements without declarations have none inside. -/
theorem flatPart_of_nothing
    {statements : List Statement}
    (nothing : declarationsOf statements = []) :
    FlatPart (.all statements) := by
  induction statements with
  | nil => exact fun _ present => nomatch present
  | cons first rest inductionHypothesis =>
      obtain ⟨inFirst, inRest⟩ := List.append_eq_nil_iff.mp nothing
      intro statement present
      rcases List.mem_cons.mp present with rfl | later
      · exact .inr inFirst
      · exact inductionHypothesis inRest statement later

/-- A statement of a flat part declares nothing inside, unless it is a declaration. -/
theorem nothingInside
    {statement : Statement}
    (flat : FlatPart (.one statement))
    (other : ∀ id init, statement ≠ .declare id init) :
    statement.declarations = [] := by
  rcases flat with ⟨id, init, isDeclaration⟩ | nothing
  · exact absurd isDeclaration (other id init)
  · exact nothing

/-- A part of a program that the generator accepts. -/
theorem runPart_ends
    {exact : Prop}
    {pool : Pool}
    {before after : Slots}
    {part : Part}
    {tree : Tree}
    {view : String → Option Local}
    {state : State}
    (limit : Nat)
    (code : PartTree pool before part after tree)
    (valid : before.Valid)
    (seen : after.View view)
    (initialized : ∀ declaration ∈ part.declarations, declaration.2.isSome)
    (flat : exact → FlatPart part)
    (fits : Matches exact before view state.store) :
    Ends (Remaining exact) (fun _ last => Matches exact after view last.store)
      (runPart limit part state) := by
  induction code generalizing view state with
  | print _ argument _ =>
      exact .bind (evaluate_ends argument seen fits) fun _ _ ⟨_, lastFits⟩ => lastFits
  | @declare before after id _ type _ slot value declared =>
      obtain ⟨free, -, -, rfl⟩ := Slots.declare_ok declared
      have scope := Slots.resolve?_declared before ⟨id.name, slot, type⟩ (before.next + 1)
      have seenBefore := seen.before (Slots.grows_declare declared)
      have viewed := seen.known ((scope id.name).trans (if_pos rfl))
      refine .bind (requireFree_ends fits free) fun _ first firstFits => ?_
      refine .bind (evaluate_ends value seenBefore firstFits)
        fun _ last ⟨ofType, lastFits⟩ => ?_
      exact declare_ends lastFits free viewed ofType scope
  | declareZero _ =>
      have := initialized _ (List.mem_singleton.mpr rfl)
      cases this
  | @onlyIf _ _ _ _ elseIfs alternate _ _ _ test _ body nothing bodyEnds =>
      have noneInside isExact := (List.append_eq_nil_iff.mp (nothingInside (flat isExact) nofun)).1
      refine .bind (holds_ends test (seen.before body.grows) fits) fun isTrue middle middleFits => ?_
      cases isTrue with
      | true =>
          exact bodyEnds valid seen (fun declaration present =>
            initialized declaration (List.mem_append_left _ present))
            (fun isExact => flatPart_of_nothing (noneInside isExact)) middleFits
      | false =>
          show Ends _ _ (executeClauses limit (executeAll limit alternate) elseIfs middle)
          rw [executeClauses_eq, nothing]
          exact middleFits.scope fun isExact => body.resolve?_eq (noneInside isExact)
  | @ifElse _ _ _ _ _ elseIfs alternate _ _ _ _ test _ body _ rest bodyEnds restEnds =>
      have noneInside isExact := List.append_eq_nil_iff.mp (nothingInside (flat isExact) nofun)
      have restIs := Compile.declarationsOf_remaining elseIfs alternate
      have bodySame isExact := body.resolve?_eq (noneInside isExact).1
      have restSame isExact := rest.resolve?_eq (restIs.trans (noneInside isExact).2)
      refine .bind (holds_ends test (seen.before (body.grows.trans rest.grows)) fits)
        fun isTrue middle middleFits => ?_
      cases isTrue with
      | true =>
          have ends := bodyEnds valid (seen.before rest.grows) (fun declaration present =>
            initialized declaration (List.mem_append_left _ present))
            (fun isExact => flatPart_of_nothing (noneInside isExact).1) middleFits
          exact ends.mono fun _ _ lastFits => lastFits.scope restSame
      | false =>
          show Ends _ _ (executeClauses limit (executeAll limit alternate) elseIfs middle)
          rw [executeClauses_eq]
          refine restEnds (body.grows.valid valid) seen (fun declaration present => ?_)
            (fun isExact => flatPart_of_nothing (restIs.trans (noneInside isExact).2))
            (middleFits.scope bodySame)
          exact initialized declaration (List.mem_append_right _ (restIs ▸ present))
  | @count before held inside after counter _ _ source _ slot _ _ _ start stop hidden declared body
      bodyEnds =>
      have noneInside isExact := nothingInside (flat isExact) nofun
      have same isExact := body.resolve?_eq (noneInside isExact)
      have heldGrows := Slots.grows_hidden hidden
      have insideGrows := Slots.grows_declare declared
      have insideValid := insideGrows.valid (heldGrows.valid valid)
      obtain ⟨-, -, rfl⟩ := Slots.hidden_ok hidden
      obtain ⟨free, -, -, insideIs⟩ := Slots.declare_ok declared
      have scope other : inside.resolve? other = if counter.name = other
          then some ⟨counter.name, slot, .int⟩ else before.resolve? other := by
        rw [insideIs]
        exact Slots.resolve?_declared _ _ _ _
      have resolved := (scope counter.name).trans (if_pos rfl)
      have seenBefore := seen.before ((heldGrows.trans (insideGrows.trans body.grows)).remove free)
      have seenInside := seen.counter (body.grows.valid insideValid) (body.grows.kept resolved)
      refine .bind (bound_ends start seenBefore fits) fun first started startedFits => ?_
      refine .bind (bound_ends stop seenBefore startedFits) fun last stopped stoppedFits => ?_
      refine .bind (declareCounter_ends stoppedFits free rfl scope) fun _ entered enteredFits => ?_
      have rounds := Ends.rounds limit (fun state => countRound_ends last
        seenInside body.grows resolved rfl same (fun state stateFits =>
          bodyEnds insideValid seenInside initialized
            (fun isExact => flatPart_of_nothing (noneInside isExact)) stateFits)) enteredFits
      exact .removing (rounds.mono fun _ _ roundsFits => (roundsFits.scope same).remove)
  | @loop _ _ condition source _ _ _ test _ body bodyEnds =>
      have noneInside isExact := nothingInside (flat isExact) nofun
      have same isExact := body.resolve?_eq (noneInside isExact)
      have rounds := Ends.rounds limit (fun state => whileRound_ends test
        (seen.before body.grows) same fun state stateFits => bodyEnds valid seen initialized
          (fun isExact => flatPart_of_nothing (noneInside isExact)) stateFits) fits
      exact rounds.mono fun _ _ lastFits => lastFits.scope same
  | assign resolved value =>
      exact .bind (evaluate_ends (.assign resolved value) seen fits)
        fun _ _ ⟨_, lastFits⟩ => lastFits
  | drop value => exact .bind (evaluate_ends value seen fits) fun _ _ ⟨_, lastFits⟩ => lastFits
  | nil => exact fits
  | cons first rest firstEnds restEnds =>
      refine .bind (firstEnds valid (seen.before rest.grows) (fun declaration present =>
        initialized declaration (List.mem_append_left _ present))
        (fun isExact => flat isExact _ List.mem_cons_self) fits) fun _ middle middleFits => ?_
      exact restEnds (first.grows.valid valid) seen (fun declaration present =>
        initialized declaration (List.mem_append_right _ present))
        (fun isExact statement present => flat isExact statement (List.mem_cons_of_mem _ present))
        middleFits

/-- The empty store matches the empty scope. -/
theorem matches_empty (exact : Prop) (view : String → Option Local) :
    Matches exact .empty view .empty where
  typed := by
    intro name value read
    cases read
  bound := fun _ _ => rfl

/-- A program that the generator accepts, and whose declarations all give first values,
ends in no error but that a name is not bound or bound already, however many rounds its
loops are given.  If its declarations are outside conditionals and loops, it ends in no
error at all. -/
theorem accepted_program_safe
    {options : Compile.Options}
    {source : Program}
    {file : Class.File}
    (made : Compile.classFile options source = .ok file)
    (initialized : Initialized source)
    (limit : Nat) :
    (∀ error, (program limit .empty source).halt = some (.error error) →
      (∃ name, error.fault = .undeclared name) ∨ ∃ name, error.fault = .redeclared name) ∧
    (DeclaresOnTop source → ∀ error, (program limit .empty source).halt ≠ some (.error error)) := by
  obtain ⟨routine, tree, slots, -, main⟩ := Compile.classFile_ok made
  have seen := (main.code.grows.valid Slots.valid_empty).view
  have ends : Ends (Remaining (DeclaresOnTop source)) _ (executeAll limit source ⟨.empty, #[]⟩) :=
    runPart_ends limit main.code Slots.valid_empty seen initialized id
      (matches_empty (DeclaresOnTop source) slots.resolve?)
  have faults : ∀ error, (program limit .empty source).halt = some (.error error) →
      Remaining (DeclaresOnTop source) error := by
    intro error halted
    unfold program start at halted
    cases ran : executeAll limit source ⟨.empty, #[]⟩ with
    | ok value last =>
        rw [ran] at halted
        cases halted
    | error halt last =>
        rw [ran] at halted ends
        obtain rfl := Option.some.inj halted
        exact ends
  exact ⟨fun error halted => (faults error halted).2,
    fun onTop error halted => (faults error halted).1 onTop⟩

theorem totals_safe :
    ∃ file, Compile.classFile ⟨"Totals", none⟩ Compile.totals = .ok file ∧
      Initialized Compile.totals ∧ DeclaresOnTop Compile.totals ∧
      ∀ error, (program patience .empty Compile.totals).halt ≠ some (.error error) := by
  obtain ⟨file, made⟩ := Compile.exists_classFile_totals
  have initialized : Initialized Compile.totals := by
    unfold Initialized
    decide
  have onTop : DeclaresOnTop Compile.totals := by
    simp [DeclaresOnTop, Compile.totals, Statement.declarations, declarationsOf,
      clauseDeclarations]
  exact ⟨file, made, initialized, onTop, (accepted_program_safe made initialized patience).2 onTop⟩

end Evaluate
end Pictogram
