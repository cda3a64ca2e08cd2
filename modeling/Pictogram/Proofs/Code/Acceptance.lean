import Mathlib.Data.Option.Basic
import Pictogram.Compile
import Pictogram.Proofs.Code.Expression

/-!
# Which programs have a class

A program whose names are in scope and whose types fit has a class, unless it is too
long.  What is too long is said by a number that bounds the bytes that the code of a
part takes, and half the constants that it adds.
-/

namespace Pictogram
namespace Compile

open Pictogram.Class (Pool Constant)
open Machine (Opcode)

/-- The type of the value of an operation, if its operands may be of these types. -/
def operationType? (operator : BinaryOperator) (left right : StaticType) : Option StaticType :=
  match operator with
  | .add | .subtract | .multiply | .divide | .modulo =>
    if left = .int ∧ right = .int then some .int else none
  | .lessThan | .lessOrEqual | .greaterThan | .greaterOrEqual =>
    if left = .int ∧ right = .int then some .boolean else none
  | .and | .or => if left = .boolean ∧ right = .boolean then some .boolean else none
  | .equal => if left = right ∧ left ≠ .string then some .boolean else none

/-- The type of a literal, if it has one. -/
def literalType? : Literal → Option StaticType
  | .number value => (Number.toInt32? value).map fun _ => .int
  | .string _ => some .string
  | .boolean _ => some .boolean
  | .null => none

/-- The type of an expression, if its names are in scope and its types fit. -/
def expressionType? (slots : Slots) : Expression → Option StaticType
  | .literal literal _ => literalType? literal
  | .name id => (slots.resolve? id.name).map (·.type)
  | .negate argument _ => do
    guard (expressionType? slots argument = some .int)
    return .int
  | .binary operator left right _ => do
    operationType? operator (← expressionType? slots left) (← expressionType? slots right)
  | .assign target value => do
    let found ← slots.resolve? target.name
    guard (expressionType? slots value = some found.type)
    return found.type

/-- The type of a first value, an integer if there is none. -/
def initialType? (slots : Slots) : Option Expression → Option StaticType
  | some value => expressionType? slots value
  | none => some .int

/-- The scope after a slot has been handed out. -/
def scopeOf {α : Type} (change : EStateM Error Slots α) (slots : Slots) : Option Slots :=
  match change slots with
  | .ok _ after => some after
  | .error _ _ => none

/-- Whether an expression may be a test. -/
def isTest (slots : Slots) (test : Expression) : Bool :=
  match expressionType? slots test with
  | some type => type ≠ .string
  | none => false

mutual

/-- The scope after a statement, if its names are in scope and its types fit. -/
def scopeAfter? (slots : Slots) : Statement → Option Slots
  | .print argument _ => do
    guard (expressionType? slots argument).isSome
    return slots
  | .declare id init => do
    let type ← initialType? slots init
    scopeOf (Slots.declare id type) slots
  | .conditional test body elseIfs alternate => do
    guard (isTest slots test)
    let between ← scopeAfterAll? slots body
    let between ← scopeAfterClauses? between elseIfs
    scopeAfterAll? between alternate
  | .count counter start stop body => do
    guard (expressionType? slots start = some .int)
    guard (expressionType? slots stop = some .int)
    let held ← scopeOf Slots.hidden slots
    let inside ← scopeOf (Slots.declare counter .int) held
    let after ← scopeAfterAll? inside body
    return after.remove counter.name
  | .loop test body => do
    guard (isTest slots test)
    scopeAfterAll? slots body
  | .evaluate expression => do
    guard (expressionType? slots expression).isSome
    return slots

/-- The scope after further clauses of a conditional. -/
def scopeAfterClauses? (slots : Slots) : List Clause → Option Slots
  | [] => some slots
  | .mk test body :: rest => do
    guard (isTest slots test)
    let between ← scopeAfterAll? slots body
    scopeAfterClauses? between rest

/-- The scope after statements. -/
def scopeAfterAll? (slots : Slots) : List Statement → Option Slots
  | [] => some slots
  | first :: rest => do
    let between ← scopeAfter? slots first
    scopeAfterAll? between rest

end

/-- How much room the code of an expression takes at most. -/
def expressionCost : Expression → Nat
  | .literal _ _ => 4
  | .name _ => 2
  | .negate argument _ => expressionCost argument + 1
  | .binary _ left right _ => expressionCost left + expressionCost right + 8
  | .assign _ value => expressionCost value + 3

mutual

/-- How much room the code of a statement takes at most. -/
def statementCost : Statement → Nat
  | .print argument _ => expressionCost argument + 12
  | .declare _ none => 6
  | .declare _ (some value) => expressionCost value + 2
  | .conditional test body elseIfs alternate =>
    expressionCost test + statementsCost body + clausesCost elseIfs + statementsCost alternate + 6
  | .count _ start stop body =>
    expressionCost start + expressionCost stop + statementsCost body + 17
  | .loop test body => expressionCost test + statementsCost body + 6
  | .evaluate expression => expressionCost expression + 1

/-- How much room the code of further clauses takes at most. -/
def clausesCost : List Clause → Nat
  | [] => 0
  | .mk test body :: rest => expressionCost test + statementsCost body + clausesCost rest + 6

/-- How much room the code of statements takes at most. -/
def statementsCost : List Statement → Nat
  | [] => 0
  | first :: rest => statementCost first + statementsCost rest

end

/-! ## What succeeds where there is room -/

/-- The number of bytes from which on branches might not reach. -/
def codeRoom : Nat := 32000

/-- The number of constants from which on indices might run out. -/
def poolRoom : Nat := 65000

/-- Where there is room enough, a part of the construction succeeds, with a good result,
and takes at most that room. -/
def Takes
    {α : Type}
    (cost : Nat)
    (before after : Slots)
    (good : α → Prop)
    (emit : Emit α) : Prop :=
  ∀ body : Body, body.slots = before → body.code.position + cost ≤ codeRoom →
    body.pool.size + 2 * cost ≤ poolRoom →
    ∃ value next, emit body = .ok value next ∧ good value ∧ next.slots = after ∧
      next.code.position ≤ body.code.position + cost ∧
      next.pool.size ≤ body.pool.size + 2 * cost

/-- An instruction takes a byte for its opcode and those of its operands. -/
theorem Code.position_append (code : Code) (opcode : Opcode) (operands : List UInt8) :
    (code.append opcode operands).position = code.position + (1 + operands.length) := by
  unfold append
  cases opcode.stackEffect? <;>
    simp only [position, foldl_push, adjust, Array.size_append, Array.size_push,
      List.size_toArray] <;> omega

/-- Overwritten code is as long as before. -/
theorem Code.size_overwrite (bytes : Array UInt8) (address : Nat) (written : List UInt8) :
    (overwrite bytes address written).size = bytes.size := by
  induction written generalizing bytes address with
  | nil => rfl
  | cons byte rest inductionHypothesis =>
      rw [overwrite, inductionHypothesis, Array.size_setIfInBounds]

/-- Where there is room enough, additions to a pool are not refused and take at most that
room. -/
def Adds {α : Type} (count : Nat) (build : Pool.Build α) : Prop :=
  ∀ pool : Pool, pool.size + count ≤ poolRoom →
    ∃ value after, build pool = .ok value after ∧ after.size ≤ pool.size + count

namespace Adds

variable {α β : Type} {count more : Nat}

/-- Additions one after the other take the room of both. -/
theorem bind
    {first : Pool.Build α}
    {next : α → Pool.Build β}
    (firstAdds : Adds count first)
    (nextAdds : ∀ value, Adds more (next value)) :
    Adds (count + more) (first >>= next) := by
  intro pool fits
  obtain ⟨value, middle, built, middleSize⟩ := firstAdds pool (by omega)
  obtain ⟨result, last, builtNext, lastSize⟩ := nextAdds value middle (by omega)
  exact ⟨result, last, Stateful.bind_eq_ok.mpr ⟨value, middle, built, builtNext⟩, by omega⟩

/-- Additions that fit in some room fit in more. -/
theorem mono {build : Pool.Build α} (adds : Adds count build) (le : count ≤ more) :
    Adds more build := by
  intro pool fits
  obtain ⟨value, after, built, size⟩ := adds pool (by omega)
  exact ⟨value, after, built, by omega⟩

theorem pure (value : α) : Adds 0 (Pure.pure value : Pool.Build α) :=
  fun pool _ => ⟨value, pool, rfl, le_refl _⟩

/-- One constant that is not wide takes one index. -/
theorem add {constant : Constant} (narrow : constant.isWide = false) :
    Adds 1 (Pool.add constant) := by
  intro pool fits
  unfold Pool.add
  cases known : pool.indices[constant]? with
  | some index => exact ⟨index, pool, rfl, by omega⟩
  | none =>
      have width : constant.width = 1 := by simp [Constant.width, narrow]
      have fitsIndex : pool.entries.size + 1 + constant.width ≤ Pool.indexBound := by
        unfold Pool.size poolRoom at fits
        unfold Pool.indexBound
        omega
      refine ⟨_, _, if_pos fitsIndex, ?_⟩
      simp [Pool.append, narrow, Pool.size]

theorem text (text : String) : Adds 1 (Pool.text text) := add rfl

theorem integer (value : Int32) : Adds 1 (Pool.integer value) := add rfl

theorem classRef (name : String) : Adds 2 (Pool.classRef name) :=
  .bind (text name) fun _ => add rfl

theorem stringRef (name : String) : Adds 2 (Pool.stringRef name) :=
  .bind (text name) fun _ => add rfl

theorem nameAndType (name descriptor : String) : Adds 3 (Pool.nameAndType name descriptor) :=
  .bind (text name) fun _ => .bind (text descriptor) fun _ => add rfl

theorem fieldRef (owner name descriptor : String) :
    Adds 6 (Pool.fieldRef owner name descriptor) :=
  .bind (classRef owner) fun _ => .bind (nameAndType name descriptor) fun _ => add rfl

theorem methodRef (owner name descriptor : String) :
    Adds 6 (Pool.methodRef owner name descriptor) :=
  .bind (classRef owner) fun _ => .bind (nameAndType name descriptor) fun _ => add rfl

end Adds

namespace Takes

variable {α β : Type} {cost more : Nat} {before between after slots : Slots}
  {good : α → Prop} {fine : β → Prop}

/-- Parts one after the other take the room of both. -/
theorem bind
    {first : Emit α}
    {next : α → Emit β}
    (firstTakes : Takes cost before between good first)
    (nextTakes : ∀ value, good value → Takes more between after fine (next value)) :
    Takes (cost + more) before after fine (first >>= next) := by
  intro body slotsAre codeFits poolFits
  obtain ⟨value, middle, ran, isGood, middleSlots, middleCode, middlePool⟩ :=
    firstTakes body slotsAre (by omega) (by omega)
  obtain ⟨result, last, ranNext, isFine, lastSlots, lastCode, lastPool⟩ :=
    nextTakes value isGood middle middleSlots (by omega) (by omega)
  exact ⟨result, last, Stateful.bind_eq_ok.mpr ⟨value, middle, ran, ranNext⟩, isFine, lastSlots,
    by omega, by omega⟩

theorem pure {value : α} (isGood : good value) : Takes 0 slots slots good (Pure.pure value) :=
  fun body slotsAre _ _ => ⟨value, body, rfl, isGood, slotsAre, le_refl _, le_refl _⟩

theorem result (value : α) : Takes 0 slots slots (· = value) (Pure.pure value) :=
  pure rfl

/-- A part that fits in some room fits in more. -/
theorem mono
    {emit : Emit α}
    (takes : Takes cost before after good emit)
    (le : cost ≤ more) :
    Takes more before after good emit := by
  intro body slotsAre codeFits poolFits
  obtain ⟨value, next, ran, isGood, nextSlots, nextCode, nextPool⟩ :=
    takes body slotsAre (by omega) (by omega)
  exact ⟨value, next, ran, isGood, nextSlots, by omega, by omega⟩

/-- A change of the code takes as much room as it makes the code longer. -/
theorem write
    {change : Code → Code}
    (grows : ∀ code, (change code).position ≤ code.position + cost) :
    Takes cost slots slots (fun _ => True) (Emit.write change) :=
  fun body slotsAre _ _ => ⟨(), _, rfl, trivial, slotsAre, grows body.code, by simp⟩

theorem append (opcode : Opcode) (operands : List UInt8) :
    Takes (1 + operands.length) slots slots (fun _ => True)
      (Emit.write (·.append opcode operands)) :=
  write fun code => (Code.position_append code opcode operands).le

theorem instruction (opcode : Opcode) :
    Takes 1 slots slots (fun _ => True) (Emit.instruction opcode) :=
  append opcode []

/-- A constant is loaded by at most three bytes. -/
theorem loadConstant (index : UInt16) :
    Takes 3 slots slots (fun _ => True) (Emit.loadConstant index) := by
  refine write fun code => ?_
  unfold Code.loadConstant
  split
  · exact (Code.position_append code _ _).le.trans (by simp)
  · exact (Code.position_append code _ _).le.trans (by simp [Bytes.word])

theorem load (type : StaticType) (slot : UInt8) :
    Takes 2 slots slots (fun _ => True) (Emit.load type slot) := by
  refine write fun code => ?_
  unfold Code.load
  split
  · exact (Code.position_append code _ _).le.trans (by simp)
  · exact (Code.position_append code _ _).le.trans (by simp)

theorem store (type : StaticType) (slot : UInt8) :
    Takes 2 slots slots (fun _ => True) (Emit.store type slot) := by
  refine write fun code => ?_
  unfold Code.store
  split
  · exact (Code.position_append code _ _).le.trans (by simp)
  · exact (Code.position_append code _ _).le.trans (by simp)

theorem position : Takes 0 slots slots (· ≤ codeRoom) Emit.position :=
  fun body slotsAre codeFits _ => ⟨body.code.position, body, rfl, codeFits, slotsAre, le_refl _,
    le_refl _⟩

/-- A branch takes three bytes, and its address is within the room. -/
theorem jump (opcode : Opcode) :
    Takes 3 slots slots (·.address ≤ codeRoom) (Emit.jump opcode) :=
  .bind position fun _ inside => .bind (append opcode [0xFF, 0xFF]) fun _ _ => .pure inside

/-- A branch within the code reaches its target. -/
theorem offset
    {source target : Nat}
    (sourceInside : source ≤ codeRoom)
    (targetInside : target ≤ codeRoom) :
    Takes 0 slots slots (·.length = 2) (Emit.offset source target) := by
  unfold codeRoom at sourceInside targetInside
  have near : -32768 ≤ (target : Int) - source ∧ (target : Int) - source ≤ 32767 := by omega
  have found : Code.offsetBytes source target = .ok (Bytes.signed 2 (target - source)) :=
    if_pos near
  unfold Emit.offset
  rw [found]
  exact .pure (Bytes.length_signed 2 _)

/-- Where there is room for the code, every branch in it reaches its end. -/
theorem patch {branch : Jump} (inside : branch.address ≤ codeRoom) :
    Takes 0 slots slots (fun _ => True) (Emit.patch branch) := by
  have filled (bytes : List UInt8) :
      Takes 0 slots slots (fun _ => True) (Emit.write (·.fill branch bytes)) :=
    write fun code => (Code.size_overwrite code.bytes _ bytes).le
  exact .bind position fun _ here => .bind (offset inside here) fun bytes _ => filled bytes

/-- Where there is room for the code, a branch back reaches every target in it. -/
theorem jumpBack (opcode : Opcode) {target : Nat} (inside : target ≤ codeRoom) :
    Takes 3 slots slots (fun _ => True) (Emit.jumpBack opcode target) := by
  show Takes (0 + (0 + 3)) slots slots _ _
  refine .bind position fun _ here => .bind (offset here inside) fun bytes length => ?_
  have takes : Takes (1 + bytes.length) slots slots _ _ := append opcode bytes
  rw [length] at takes
  exact takes

/-- Additions to the pool are paid for by the room, two indices to a byte. -/
theorem onPool {build : Pool.Build α} (adds : Adds (2 * cost) build) :
    Takes cost slots slots (fun _ => True) (Emit.onPool build) := by
  rintro ⟨pool, code, _⟩ slotsAre - poolFits
  obtain ⟨value, after, built, afterSize⟩ := adds pool poolFits
  refine ⟨value, ⟨after, code, _⟩, ?_, trivial, slotsAre, by simp, afterSize⟩
  simp only [Emit.onPool, built]

/-- A change of the slots takes no room, and is not refused if it leaves a scope. -/
theorem onSlots {change : EStateM Error Slots α} (changed : scopeOf change before = some after) :
    Takes 0 before after (fun _ => True) (Emit.onSlots change) := by
  rintro ⟨pool, code, slots⟩ slotsAre _ _
  subst slotsAre
  unfold scopeOf at changed
  cases ran : change slots with
  | error error rest => simp [ran] at changed
  | ok value rest =>
      simp only [ran, Option.some.injEq] at changed
      refine ⟨value, ⟨pool, code, after⟩, ?_, trivial, rfl, le_refl _, le_refl _⟩
      simp only [Emit.onSlots, ran, changed]

/-- A name in scope is found. -/
theorem resolve
    {id : Identifier}
    {found : Local}
    (resolved : slots.resolve? id.name = some found) :
    Takes 0 slots slots (· = found) (Emit.resolve id) := by
  intro body slotsAre _ _
  refine ⟨found, body, ?_, rfl, slotsAre, le_refl _, le_refl _⟩
  refine Stateful.bind_eq_ok.mpr ⟨body, body, Stateful.get_eq_ok.mpr ⟨rfl, rfl⟩, ?_⟩
  rw [slotsAre, resolved]
  rfl

end Takes

section Expressions

variable {slots : Slots} {type : StaticType}

/-- An integer can be pushed, and takes room for four bytes at most. -/
theorem takes_pushInt (value : Int32) :
    Takes 4 slots slots (fun _ => True) (Emit.pushInt value) := by
  unfold Emit.pushInt
  dsimp only
  split
  · exact (Takes.instruction _).mono (by decide)
  · split
    · exact (Takes.append _ _).mono (by simp)
    · split
      · exact (Takes.append _ _).mono (by simp)
      · have added : Adds (2 * 1) (Pool.integer value) := (Adds.integer value).mono (by decide)
        exact .bind (.onPool added) fun index _ => .loadConstant index

/-- A literal that has a type is accepted, with that type. -/
theorem takes_literal
    {value : Literal}
    (position : Position)
    (ofType : literalType? value = some type) :
    Takes 4 slots slots (· = type) (literal position value) := by
  cases value with
  | number number =>
      obtain ⟨integer, isInteger, rfl⟩ := Option.map_eq_some_iff.mp ofType
      simp only [literal, isInteger]
      exact .bind (takes_pushInt integer) fun _ _ => .result _
  | string text =>
      cases ofType
      have added : Adds (2 * 1) (Pool.stringRef text) := .stringRef text
      exact .bind (.onPool added) fun index _ => .bind (.loadConstant index) fun _ _ => .result _
  | boolean truth =>
      cases ofType
      exact .bind (takes_pushInt _) fun _ _ => .result _
  | null => cases ofType

/-- A comparison takes eight bytes at most. -/
theorem takes_comparison (relation : Machine.Relation) :
    Takes 8 slots slots (fun _ => True) (comparison relation) := by
  unfold comparison
  rw [pushInt_zero, pushInt_one]
  have adjusted : Takes 0 slots slots (fun _ => True) (Emit.write (·.adjust (-1))) :=
    .write fun code => le_refl _
  exact .bind (.jump _) fun _ whenTrue => .bind (.instruction _) fun _ _ =>
    .bind (.jump _) fun _ finished => .bind (.patch whenTrue) fun _ _ =>
      .bind adjusted fun _ _ => .bind (.instruction _) fun _ _ => .patch finished

/-- Operands of the type that is wanted are accepted. -/
theorem takes_require
    {operands : Operands}
    {expected : StaticType}
    (left : operands.left = expected)
    (right : operands.right = expected) :
    Takes 0 slots slots (fun _ => True) (operands.require expected) := by
  unfold Operands.require
  rw [if_neg (not_not.mpr left), if_neg (not_not.mpr right)]
  exact .pure trivial

/-- Operands that are not both texts are accepted. -/
theorem takes_refuseTexts
    {operands : Operands}
    (construct : Unsupported)
    (notTexts : ¬(operands.left = .string ∧ operands.right = .string)) :
    Takes 0 slots slots (fun _ => True) (operands.refuseTexts construct) := by
  unfold Operands.refuseTexts
  rw [if_neg notTexts]
  exact .pure trivial

/-- Arithmetic on integers is accepted. -/
theorem takes_arithmetic
    {operands : Operands}
    (operation : Machine.Arithmetic)
    (left : operands.left = .int)
    (right : operands.right = .int) :
    Takes 1 slots slots (· = .int) (arithmetic operands operation) :=
  .bind (takes_require left right) fun _ _ => .bind (.instruction _) fun _ _ => .result _

/-- Logic on booleans is accepted. -/
theorem takes_logical
    {operands : Operands}
    (operation : Machine.Arithmetic)
    (left : operands.left = .boolean)
    (right : operands.right = .boolean) :
    Takes 1 slots slots (· = .boolean) (logical operands operation) :=
  .bind (takes_require left right) fun _ _ => .bind (.instruction _) fun _ _ => .result _

/-- The order of integers is accepted. -/
theorem takes_ordering
    {operands : Operands}
    (relation : Machine.Relation)
    (left : operands.left = .int)
    (right : operands.right = .int) :
    Takes 8 slots slots (· = .boolean) (ordering operands relation) :=
  .bind (takes_require left right) fun _ _ => .bind (takes_comparison _) fun _ _ => .result _

/-- Equality on operands of one type is accepted, unless they are texts. -/
theorem takes_equality
    {operands : Operands}
    (same : operands.left = operands.right)
    (noText : operands.left ≠ .string) :
    Takes 8 slots slots (· = .boolean) (equality operands) := by
  have notTexts : ¬(operands.left = .string ∧ operands.right = .string) := fun texts =>
    noText texts.1
  refine (Takes.bind (takes_refuseTexts _ notTexts) fun _ _ => ?_).mono (Nat.zero_add 8).le
  rw [if_neg (not_not.mpr same)]
  exact .bind (takes_comparison _) fun _ _ => .result _

/-- An operation whose operands give it a type is accepted, with that type. -/
theorem takes_operation
    {operator : BinaryOperator}
    {operands : Operands}
    (ofType : operationType? operator operands.left operands.right = some type) :
    Takes 8 slots slots (· = type) (operation operands operator) := by
  cases operator with
  | add =>
      obtain ⟨⟨left, right⟩, ⟨⟩⟩ := Option.ite_none_right_eq_some.mp ofType
      have notTexts : ¬(operands.left = .string ∧ operands.right = .string) := by
        rw [left]
        rintro ⟨⟨⟩, _⟩
      exact (Takes.bind (takes_refuseTexts _ notTexts)
        fun _ _ => takes_arithmetic _ left right).mono (by decide)
  | subtract | multiply | divide | modulo =>
      obtain ⟨⟨left, right⟩, ⟨⟩⟩ := Option.ite_none_right_eq_some.mp ofType
      exact (takes_arithmetic _ left right).mono (by decide)
  | lessThan | lessOrEqual | greaterThan | greaterOrEqual =>
      obtain ⟨⟨left, right⟩, ⟨⟩⟩ := Option.ite_none_right_eq_some.mp ofType
      exact takes_ordering _ left right
  | and | or =>
      obtain ⟨⟨left, right⟩, ⟨⟩⟩ := Option.ite_none_right_eq_some.mp ofType
      exact (takes_logical _ left right).mono (by decide)
  | equal =>
      obtain ⟨⟨same, noText⟩, ⟨⟩⟩ := Option.ite_none_right_eq_some.mp ofType
      exact takes_equality same noText

/-- A value of the type that is wanted is accepted. -/
theorem takes_of_type
    {cost : Nat}
    {expected : StaticType}
    {code : Emit StaticType}
    (position : Position)
    (takes : Takes cost slots slots (· = expected) code) :
    Takes cost slots slots (fun _ => True) (require expected position code) := by
  refine (Takes.bind takes fun found isExpected => ?_).mono (Nat.add_zero cost).le
  rw [if_neg (not_not.mpr isExpected)]
  exact .pure trivial

/-- An assignment to a name in scope is accepted if its value has the type of the name. -/
theorem takes_assignment
    {cost : Nat}
    {target : Identifier}
    {found : Local}
    {value : Emit StaticType}
    (position : Position)
    (keep : Bool)
    (resolved : slots.resolve? target.name = some found)
    (takes : Takes cost slots slots (· = found.type) value) :
    Takes (cost + 3) slots slots (· = found.type) (assignment target value position keep) := by
  refine (Takes.bind (.resolve resolved) ?_).mono (Nat.zero_add (cost + 3)).le
  rintro _ rfl
  refine .bind (takes_of_type position takes) fun _ _ => ?_
  cases keep with
  | true => exact .bind (.instruction _) fun _ _ => .bind (.store _ _) fun _ _ => .result _
  | false =>
      exact (Takes.bind (.store _ _) fun _ _ => .result _).mono (by decide)

/-- An expression that has a type has code. -/
theorem takes_expression {e : Expression} (ofType : expressionType? slots e = some type) :
    Takes (expressionCost e) slots slots (· = type) (expression e) := by
  induction e generalizing type with
  | literal value position => exact takes_literal position ofType
  | name id =>
      obtain ⟨found, resolved, rfl⟩ := Option.map_eq_some_iff.mp ofType
      refine (Takes.bind (.resolve resolved) ?_).mono (Nat.zero_add 2).le
      rintro _ rfl
      exact .bind (.load _ _) fun _ _ => .result _
  | negate argument position inductionHypothesis =>
      obtain ⟨_, isInt, rest⟩ := Option.bind_eq_some_iff.mp ofType
      cases rest
      exact .bind (takes_of_type _ (inductionHypothesis ((Option.guard_eq_some' _).mp isInt))) fun _ _ =>
        .bind (.instruction _) fun _ _ => .result _
  | binary operator left right position leftHypothesis rightHypothesis =>
      obtain ⟨leftType, leftIs, rest⟩ := Option.bind_eq_some_iff.mp ofType
      obtain ⟨rightType, rightIs, operatorIs⟩ := Option.bind_eq_some_iff.mp rest
      refine (Takes.bind (leftHypothesis leftIs) ?_).mono (Nat.add_assoc _ _ 8).ge
      rintro _ rfl
      refine .bind (rightHypothesis rightIs) ?_
      rintro _ rfl
      exact takes_operation operatorIs
  | assign target value inductionHypothesis =>
      obtain ⟨found, resolved, rest⟩ := Option.bind_eq_some_iff.mp ofType
      obtain ⟨_, sameType, last⟩ := Option.bind_eq_some_iff.mp rest
      cases last
      exact takes_assignment _ true resolved (inductionHypothesis ((Option.guard_eq_some' _).mp sameType))

end Expressions

section Statements

variable {slots : Slots}

/-- A test that is a test by its type is accepted. -/
theorem takes_condition {test : Expression} (isTest : isTest slots test = true) :
    Takes (expressionCost test) slots slots (fun _ => True) (condition test) := by
  unfold Compile.isTest at isTest
  cases ofType : expressionType? slots test with
  | none => simp [ofType] at isTest
  | some type =>
      have noText : type ≠ .string := by simpa [ofType] using isTest
      refine (Takes.bind (takes_expression ofType) ?_).mono (Nat.add_zero _).le
      rintro _ rfl
      rw [if_neg noText]
      exact .pure trivial

/-- A value that has a type can be printed. -/
theorem takes_print {argument : Expression} {type : StaticType}
    (ofType : expressionType? slots argument = some type) :
    Takes (expressionCost argument + 12) slots slots (fun _ => True) (print argument) := by
  have stream : Adds (2 * 3)
      (Pool.fieldRef "java/lang/System" "out" "Ljava/io/PrintStream;") := .fieldRef _ _ _
  have method (type : StaticType) : Adds (2 * 3)
      (Pool.methodRef "java/io/PrintStream" "println" s!"({type.descriptor})V") :=
    .methodRef _ _ _
  have fetched (index : UInt16) : Takes 3 slots slots (fun _ => True)
      (Emit.write (·.emitWord .getStatic index)) := .append .getStatic (Bytes.word index)
  have called (index : UInt16) : Takes 3 slots slots (fun _ => True)
      (Emit.write (·.invoke .invokeVirtual index (-2))) :=
    .write fun code => (Code.position_append code .invokeVirtual (Bytes.word index)).le
  have all := Takes.bind (.onPool stream) fun index _ => .bind (fetched index) fun _ _ =>
    .bind (takes_expression ofType) fun type _ => .bind (.onPool (method type)) fun index _ =>
      called index
  exact all.mono (by omega)

/-- A declaration that leaves a scope is accepted, and leaves that scope. -/
theorem takes_declaration
    {id : Identifier}
    {init : Option Expression}
    {after : Slots}
    (inScope : scopeAfter? slots (.declare id init) = some after) :
    Takes (statementCost (.declare id init)) slots after (fun _ => True)
      (declaration id init) := by
  rw [scopeAfter?] at inScope
  obtain ⟨type, ofType, changed⟩ := Option.bind_eq_some_iff.mp inScope
  have stored (type : StaticType) (changed : scopeOf (Slots.declare id type) slots = some after) :
      Takes 2 slots after (fun _ => True)
        (Emit.onSlots (Slots.declare id type) >>= fun slot => Emit.store type slot) :=
    (Takes.bind (.onSlots changed) fun slot _ => .store type slot).mono (Nat.zero_add 2).le
  cases init with
  | none =>
      cases ofType
      exact .bind (takes_pushInt 0) fun _ _ => stored _ changed
  | some value =>
      refine .bind (takes_expression ofType) ?_
      rintro _ rfl
      exact stored _ changed

/-- An expression that has a type is accepted for its effect. -/
theorem takes_effect {e : Expression} {type : StaticType}
    (ofType : expressionType? slots e = some type) :
    Takes (expressionCost e + 1) slots slots (fun _ => True) (effect e) := by
  have popped : Takes (expressionCost e + 1) slots slots (fun _ => True) (do
      let _ ← expression e
      Emit.instruction .pop) :=
    .bind (takes_expression ofType) fun _ _ => .instruction _
  cases e with
  | assign target value =>
      obtain ⟨found, resolved, rest⟩ := Option.bind_eq_some_iff.mp ofType
      obtain ⟨_, sameType, last⟩ := Option.bind_eq_some_iff.mp rest
      have valueTakes := takes_expression ((Option.guard_eq_some' _).mp sameType)
      exact (Takes.bind (takes_assignment value.position false resolved valueTakes)
        fun _ _ => .pure trivial).mono (by simp [expressionCost])
  | literal value position => exact popped
  | name id => exact popped
  | negate argument position => exact popped
  | binary operator left right position => exact popped

/-- A counted loop has code if its bounds and its body have. -/
theorem takes_count
    {counter : Identifier}
    {start stop : Expression}
    {held inside after : Slots}
    {cost : Nat}
    {body : Emit Unit}
    (startIs : expressionType? slots start = some .int)
    (stopIs : expressionType? slots stop = some .int)
    (hidden : scopeOf Slots.hidden slots = some held)
    (declared : scopeOf (Slots.declare counter .int) held = some inside)
    (takes : Takes cost inside after (fun _ => True) body) :
    Takes (expressionCost start + expressionCost stop + cost + 17) slots
      (after.remove counter.name) (fun _ => True) (count counter start stop body) := by
  have increment (slot : UInt8) : Takes 3 after after (fun _ => True)
      (Emit.write (·.increment slot 1)) := .append .increment [slot, 1]
  have removed : Takes 0 after (after.remove counter.name) (fun _ => True)
      (modify fun built => { built with slots := built.slots.remove counter.name } : Emit Unit) :=
    fun body slotsAre _ _ => ⟨(), _, rfl, trivial, by rw [← slotsAre], le_refl _, le_refl _⟩
  have all := Takes.bind (takes_of_type start.position (takes_expression startIs)) fun _ _ =>
    .bind (takes_of_type stop.position (takes_expression stopIs)) fun _ _ =>
    .bind (.onSlots hidden) fun stopSlot _ => .bind (.store .int stopSlot) fun _ _ =>
    .bind (.onSlots declared) fun slot _ => .bind (.store .int slot) fun _ _ =>
    .bind .position fun head headInside => .bind (.load .int slot) fun _ _ =>
    .bind (.load .int stopSlot) fun _ _ =>
    .bind (.jump (.ifCompare .greaterOrEqual)) fun finished branchInside =>
    .bind takes fun _ _ => .bind (increment slot) fun _ _ =>
    .bind (.jumpBack .goto headInside) fun _ _ => .bind (.patch branchInside) fun _ _ => removed
  exact all.mono (by omega)

/-- A loop has code if its test and its body have. -/
theorem takes_loop
    {test : Expression}
    {after : Slots}
    {cost : Nat}
    {body : Emit Unit}
    (isTest : isTest slots test = true)
    (takes : Takes cost slots after (fun _ => True) body) :
    Takes (expressionCost test + cost + 6) slots after (fun _ => True) (loop test body) := by
  have all := Takes.bind (.position) fun head headInside =>
    .bind (takes_condition isTest) fun _ _ => .bind (.jump .ifZero) fun finished branchInside =>
    .bind takes fun _ _ => .bind (.jumpBack .goto headInside) fun _ _ => .patch branchInside
  exact all.mono (by omega)

/-- All branches of a conditional start within the code. -/
def Exits.WithinRoom (exits : Exits) : Prop :=
  exits.next.address ≤ codeRoom ∧ ∀ branch ∈ exits.ends, branch.address ≤ codeRoom

theorem Exits.WithinRoom.takes {exits : Exits} (inside : exits.WithinRoom) :
    Takes 0 slots slots Exits.WithinRoom (pure exits) :=
  .pure inside

/-- The first clause of a conditional is accepted if its test and its body are. -/
theorem takes_firstClause
    {test : Expression}
    {after : Slots}
    {cost : Nat}
    {body : Emit Unit}
    (isTest : isTest slots test = true)
    (takes : Takes cost slots after (fun _ => True) body) :
    Takes (expressionCost test + cost + 3) slots after Exits.WithinRoom (firstClause test body) := by
  have inside (next : Jump) (nextInside : next.address ≤ codeRoom) : Exits.WithinRoom ⟨next, #[]⟩ :=
    ⟨nextInside, by simp⟩
  have all := Takes.bind (takes_condition isTest) fun _ _ =>
    .bind (.jump .ifZero) fun next nextInside => .bind takes fun _ _ =>
    Exits.WithinRoom.takes (inside next nextInside)
  exact all.mono (by omega)

/-- So is a further clause. -/
theorem takes_furtherClause
    {exits : Exits}
    {test : Expression}
    {after : Slots}
    {cost : Nat}
    {body : Emit Unit}
    (inside : exits.WithinRoom)
    (isTest : isTest slots test = true)
    (takes : Takes cost slots after (fun _ => True) body) :
    Takes (expressionCost test + cost + 6) slots after Exits.WithinRoom
      (furtherClause exits test body) := by
  have pushed (next finished : Jump) (nextInside : next.address ≤ codeRoom)
      (finishedInside : finished.address ≤ codeRoom) :
      Exits.WithinRoom ⟨next, exits.ends.push finished⟩ :=
    ⟨nextInside, by simpa [or_imp, forall_and] using ⟨inside.2, finishedInside⟩⟩
  have all := Takes.bind (.jump .goto) fun finished finishedInside =>
    .bind (.patch inside.1) fun _ _ => .bind (takes_condition isTest) fun _ _ =>
    .bind (.jump .ifZero) fun next nextInside => .bind takes fun _ _ =>
    Exits.WithinRoom.takes (pushed next finished nextInside finishedInside)
  exact all.mono (by omega)

/-- Where there is room for the code, all branches in it reach its end. -/
theorem takes_patchAll {branches : List Jump}
    (inside : ∀ branch ∈ branches, branch.address ≤ codeRoom) :
    Takes 0 slots slots (fun _ => True) (patchAll branches) := by
  induction branches with
  | nil => exact .pure trivial
  | cons branch rest inductionHypothesis =>
      rw [List.forall_mem_cons] at inside
      exact .bind (.patch inside.1) fun _ _ => inductionHypothesis inside.2

theorem takes_closeClauses {exits : Exits} (inside : exits.WithinRoom) :
    Takes 0 slots slots (fun _ => True) (closeClauses exits) := by
  have endsInside : ∀ branch ∈ exits.ends.toList, branch.address ≤ codeRoom := by
    simpa using inside.2
  exact .bind (.patch inside.1) fun _ _ => takes_patchAll endsInside

/-- The end of a conditional is accepted if its alternate is. -/
theorem takes_closeWith
    {exits : Exits}
    {after : Slots}
    {cost : Nat}
    {alternate : Emit Unit}
    (inside : exits.WithinRoom)
    (takes : Takes cost slots after (fun _ => True) alternate) :
    Takes (cost + 3) slots after (fun _ => True) (closeWith exits alternate) := by
  have endsInside (finished : Jump) (finishedInside : finished.address ≤ codeRoom) :
      ∀ branch ∈ (exits.ends.push finished).toList, branch.address ≤ codeRoom := by
    simpa [or_imp, forall_and] using ⟨inside.2, finishedInside⟩
  have all := Takes.bind (.jump .goto) fun finished finishedInside =>
    .bind (.patch inside.1) fun _ _ => .bind takes fun _ _ =>
    takes_patchAll (endsInside finished finishedInside)
  exact all.mono (by omega)

/-- The end of a conditional has code if its alternate has. -/
theorem takes_close
    {exits : Exits}
    {after : Slots}
    {cost : Nat}
    {alternate : List Statement}
    (inside : exits.WithinRoom)
    (takes : Takes cost slots after (fun _ => True) (statements alternate))
    (inScope : scopeAfterAll? slots alternate = some after) :
    Takes (cost + 3) slots after (fun _ => True)
      (if alternate.isEmpty then closeClauses exits else closeWith exits (statements alternate)) := by
  cases alternate with
  | nil =>
      cases inScope
      exact (takes_closeClauses inside).mono (Nat.zero_le _)
  | cons first rest => exact takes_closeWith inside takes

mutual

/-- A statement whose names are in scope and whose types fit has code. -/
theorem takes_statement {s : Statement} {before after : Slots}
    (inScope : scopeAfter? before s = some after) :
    Takes (statementCost s) before after (fun _ => True) (statement s) := by
  match s with
  | .print argument position =>
      rw [scopeAfter?] at inScope
      obtain ⟨_, typed, rest⟩ := Option.bind_eq_some_iff.mp inScope
      obtain ⟨type, ofType⟩ := Option.isSome_iff_exists.mp ((Option.guard_eq_some' _).mp typed)
      cases rest
      rw [statementCost, statement]
      exact takes_print ofType
  | .declare id init =>
      rw [statement]
      exact takes_declaration inScope
  | .conditional test body elseIfs alternate =>
      rw [scopeAfter?] at inScope
      obtain ⟨_, isTest, inBody⟩ := Option.bind_eq_some_iff.mp inScope
      obtain ⟨afterBody, bodyScope, inClauses⟩ := Option.bind_eq_some_iff.mp inBody
      obtain ⟨afterClauses, clausesScope, last⟩ := Option.bind_eq_some_iff.mp inClauses
      rw [statementCost, statement]
      have all := Takes.bind
        (takes_firstClause ((Option.guard_eq_some' _).mp isTest) (takes_statements bodyScope))
        fun exits inside => .bind (takes_clauses inside clausesScope) fun exits inside =>
          takes_close inside (takes_statements last) last
      exact all.mono (by omega)
  | .count counter start stop body =>
      rw [scopeAfter?] at inScope
      obtain ⟨_, startIs, rest⟩ := Option.bind_eq_some_iff.mp inScope
      obtain ⟨_, stopIs, rest⟩ := Option.bind_eq_some_iff.mp rest
      obtain ⟨held, hidden, rest⟩ := Option.bind_eq_some_iff.mp rest
      obtain ⟨inside, declared, rest⟩ := Option.bind_eq_some_iff.mp rest
      obtain ⟨last, bodyScope, ended⟩ := Option.bind_eq_some_iff.mp rest
      cases ended
      rw [statementCost, statement]
      exact takes_count ((Option.guard_eq_some' _).mp startIs) ((Option.guard_eq_some' _).mp stopIs)
        hidden declared (takes_statements bodyScope)
  | .loop test body =>
      rw [scopeAfter?] at inScope
      obtain ⟨_, isTest, bodyScope⟩ := Option.bind_eq_some_iff.mp inScope
      rw [statementCost, statement]
      exact takes_loop ((Option.guard_eq_some' _).mp isTest) (takes_statements bodyScope)
  | .evaluate e =>
      rw [scopeAfter?] at inScope
      obtain ⟨_, typed, rest⟩ := Option.bind_eq_some_iff.mp inScope
      obtain ⟨type, ofType⟩ := Option.isSome_iff_exists.mp ((Option.guard_eq_some' _).mp typed)
      cases rest
      rw [statementCost, statement]
      exact takes_effect ofType

/-- Further clauses whose names are in scope and whose types fit have code. -/
theorem takes_clauses {exits : Exits} {elseIfs : List Clause} {before after : Slots}
    (inside : exits.WithinRoom)
    (inScope : scopeAfterClauses? before elseIfs = some after) :
    Takes (clausesCost elseIfs) before after Exits.WithinRoom (clauses exits elseIfs) := by
  match elseIfs with
  | [] =>
      cases inScope
      rw [clauses]
      exact inside.takes
  | .mk test body :: rest =>
      rw [scopeAfterClauses?] at inScope
      obtain ⟨_, isTest, inBody⟩ := Option.bind_eq_some_iff.mp inScope
      obtain ⟨between, bodyScope, restScope⟩ := Option.bind_eq_some_iff.mp inBody
      rw [clausesCost, clauses]
      have all := Takes.bind
        (takes_furtherClause inside ((Option.guard_eq_some' _).mp isTest)
          (takes_statements bodyScope))
        fun exits inside => takes_clauses inside restScope
      exact all.mono (by omega)

/-- Statements whose names are in scope and whose types fit have code. -/
theorem takes_statements {list : List Statement} {before after : Slots}
    (inScope : scopeAfterAll? before list = some after) :
    Takes (statementsCost list) before after (fun _ => True) (statements list) := by
  match list with
  | [] =>
      cases inScope
      rw [statements]
      exact .pure trivial
  | first :: rest =>
      rw [scopeAfterAll?] at inScope
      obtain ⟨between, firstScope, restScope⟩ := Option.bind_eq_some_iff.mp inScope
      rw [statementsCost, statements]
      exact .bind (takes_statement firstScope) fun _ _ => takes_statements restScope

end

end Statements

/-! ## Whole programs -/

theorem adds_constructor (codeName : UInt16) : Adds 8 (constructor codeName) :=
  .bind (.methodRef _ _ _) fun _ => .bind (.text _) fun _ => .bind (.text _) fun _ => .pure _

/-- The constants in front of the code of `main` are at most 13. -/
theorem adds_opening (options : Options) : Adds 13 (opening options) :=
  .bind (.classRef _) fun _ => .bind (.classRef _) fun _ => .bind (.text _) fun _ =>
    .bind (adds_constructor _) fun _ => .pure _

/-- The constants behind the code of `main` are at most 4. -/
theorem adds_closing (options : Options) (draft : Draft) : Adds 4 (closing options draft) :=
  .bind (.text _) fun _ => .bind (.text _) fun _ => .bind (.text _) fun _ =>
    .bind (.text _) fun _ => .pure _

/-- A program whose names are in scope and whose types fit has a class, unless it is too long. -/
theorem exists_classFile
    (options : Options)
    {program : Program}
    (inScope : (scopeAfterAll? .empty program).isSome)
    (short : statementsCost program ≤ 30000) :
    ∃ file, classFile options program = .ok file := by
  obtain ⟨after, isAfter⟩ := Option.isSome_iff_exists.mp inScope
  obtain ⟨begun, pool, opened, poolSize⟩ := adds_opening options .empty (by decide)
  have mainTakes : Takes (statementsCost program + 1) .empty after (fun _ => True)
      (mainBody program) :=
    .bind (takes_statements isAfter) fun _ _ => .instruction _
  have emptySize : Pool.empty.size = 0 := rfl
  have emptyPosition : (Body.empty pool).code.position = 0 := rfl
  have samePool : (Body.empty pool).pool.size = pool.size := rfl
  obtain ⟨_, body, ran, -, -, bodyCode, bodyPool⟩ :=
    mainTakes (.empty pool) rfl (by unfold codeRoom; omega) (by unfold poolRoom; omega)
  have bodySize : body.code.bytes.size ≤ Code.sizeLimit := by
    unfold Code.position at bodyCode emptyPosition
    unfold Code.sizeLimit
    omega
  obtain ⟨⟨main, attributes⟩, last, closed, -⟩ := adds_closing options
    ⟨begun, body.pool, body.code.maxStack, body.slots.maxLocals, body.code.bytes.toList⟩
    body.pool (by unfold poolRoom; omega)
  have finished : body.code.finish = .ok body.code.bytes.toList := if_pos bodySize
  have drafted : draft options program =
      .ok ⟨begun, body.pool, body.code.maxStack, body.slots.maxLocals,
        body.code.bytes.toList⟩ := by
    simp only [draft, opened, ran, finished]
    rfl
  rw [classFile, drafted]
  show ∃ file, Draft.classFile _ options = .ok file
  simp only [Draft.classFile, closed, Except.ok.injEq, exists_eq']

/-- A total is added to or printed in each round of a counted loop, doubled up to a bound, and
halved for the last line. -/
def totals : Program :=
  let total : Identifier := ⟨"total", ⟨1, 1⟩⟩
  let round : Identifier := ⟨"round", ⟨2, 1⟩⟩
  let number (value : Float) : Expression := .literal (.number value) ⟨1, 1⟩
  let both (operator : BinaryOperator) (left : Identifier) (right : Float) : Expression :=
    .binary operator (.name left) (number right) ⟨1, 1⟩
  [.declare total (some (number 1.0)),
    .count round (number 0.0) (number 2.0)
      [.conditional (both .equal round 0.0)
        [.evaluate (.assign total (both .add total 3.0))] []
        [.print (.name total) ⟨4, 1⟩]],
    .loop (both .lessThan total 5.0) [.evaluate (.assign total (both .multiply total 2.0))],
    .print (both .divide total 2.0) ⟨7, 1⟩]

/-- A program with every kind of statement is accepted. -/
theorem exists_classFile_totals : ∃ file, classFile ⟨"Totals", none⟩ totals = .ok file :=
  exists_classFile _ (by decide) (by decide)

end Compile
end Pictogram
