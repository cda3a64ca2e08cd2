import Pictogram.Compile.Statement
import Pictogram.Proofs.Code.Operation
import Pictogram.Proofs.Translation

/-!
# Code that can be moved

What is written for a statement does not depend on the code in front of it, and that code stays as
it is.  Branches are filled in by their addresses and loops lead back to addresses, but all of
these are taken and used up within the statement, so that only differences between addresses get
into the bytes.
-/

namespace Pictogram
namespace Compile

open Pictogram.Class (Pool)
open Machine (Opcode Order)

/-! ## Code in front -/

namespace Code

/-- The code with other code in front of it. -/
def behind (code front : Code) : Code where
  bytes := front.bytes ++ code.bytes
  depth := front.depth + code.depth
  maxDepth := max front.maxDepth (front.depth + code.maxDepth)

variable (code front : Code)

theorem position_behind :
    (code.behind front).position = front.position + code.position :=
  Array.size_append

theorem adjust_behind (change : Int) :
    (code.behind front).adjust change = (code.adjust change).behind front := by
  simp only [adjust, behind, Code.mk.injEq, true_and]
  omega

/-- An instruction is appended behind other code as it is without it. -/
theorem append_behind (opcode : Opcode) (operands : List UInt8) :
    (code.behind front).append opcode operands = (code.append opcode operands).behind front := by
  unfold append
  cases opcode.stackEffect? with
  | none => simp [behind]
  | some change =>
      simp only [adjust_behind]
      simp [behind]

/-- An instruction changes the height of the stack as its opcode says. -/
theorem depth_append {opcode : Opcode} {change : Int} (known : opcode.stackEffect? = some change)
    (operands : List UInt8) :
    (code.append opcode operands).depth = code.depth + change := by
  rw [append_eq_grow code operands known, grow]

/-- A branch and its target, both moved, are as far from each other as before. -/
theorem redirect_behind
    (front bytes : Array UInt8)
    (address target : Nat) :
    redirect (front ++ bytes) ⟨front.size + address⟩ (front.size + target) =
      front ++ redirect bytes ⟨address⟩ target := by
  have sameOffset : ((front.size + target : Nat) : Int) - ((front.size + address : Nat) : Int) =
      (target : Int) - address := by omega
  obtain ⟨first, second, both, redirected⟩ := redirect_eq_set bytes ⟨address⟩ target
  simp only at both redirected
  rw [redirected, redirect, sameOffset, both]
  simp only [overwrite, Nat.add_assoc]
  rw [Array.setIfInBounds_append_right (Nat.le_add_right _ _),
    Array.setIfInBounds_append_right (Nat.le_add_right _ _), Nat.add_sub_cancel_left,
    Nat.add_sub_cancel_left]

end Code

/-- The branch with code in front of it. -/
def Jump.behind (branch : Jump) (front : Code) : Jump := ⟨front.position + branch.address⟩

/-- The open branches of a conditional with code in front of them. -/
def Exits.behind (exits : Exits) (front : Code) : Exits where
  next := exits.next.behind front
  ends := exits.ends.map (·.behind front)

/-- The method with code in front of its own. -/
def Body.behind (body : Body) (front : Code) : Body := { body with code := body.code.behind front }

/-- A method with code in front of its own.  Errors know nothing of that code. -/
def relocation (front : Code) : Translation Error Body where
  state body := body.behind front
  error := id

/-! ## Parts of the construction -/

/-- The second part of the construction does behind some code what the first one does without it,
and the height of the stack changes by `change` along the way. -/
structure Movable {α : Type} (front : Code) (moved : α → α) (change : Int)
    (emit follow : Emit α) : Prop where
  /-- The results differ by the code in front. -/
  carries : (relocation front).Carries moved emit follow
  /-- The height of the stack changes so. -/
  depth_eq : ∀ before value after, emit before = .ok value after →
    after.code.depth = before.code.depth + change

variable {α β : Type} {front : Code} {change : Int}

namespace Movable

protected theorem pure {moved : α → α} (value : α) :
    Movable front moved 0 (pure value) (pure (moved value)) where
  carries := .pure value
  depth_eq := by
    intro before result after done
    obtain ⟨-, rfl⟩ := Stateful.pure_eq_ok.mp done
    exact (Int.add_zero _).symm

protected theorem throw {moved : α → α} (error : Error) :
    Movable front moved change (throw error) (throw error) where
  carries := .throw error
  depth_eq := fun _ _ _ done => absurd done Stateful.throw_ne_ok

theorem throw_bind {moved : β → β} (error : Error) (next following : α → Emit β) :
    Movable front moved change (throw error >>= next) (throw error >>= following) :=
  Movable.throw error

/-- What the first part leaves of the change is up to the second one. -/
protected theorem bind
    {first : Int}
    {moved : α → α}
    {later : β → β}
    {emit follow : Emit α}
    {next following : α → Emit β}
    (movable : Movable front moved first emit follow)
    (nextMovable : ∀ value,
      Movable front later (change - first) (next value) (following (moved value))) :
    Movable front later change (emit >>= next) (follow >>= following) where
  carries := movable.carries.bind fun value => (nextMovable value).carries
  depth_eq := by
    intro before result after done
    obtain ⟨value, middle, emitted, done⟩ := Stateful.bind_eq_ok.mp done
    rw [(nextMovable value).depth_eq middle result after done,
      movable.depth_eq before value middle emitted]
    omega

protected theorem ite
    {condition : Prop}
    [Decidable condition]
    {moved : α → α}
    {emit follow otherwise alternate : Emit α}
    (movable : Movable front moved change emit follow)
    (otherwiseMovable : Movable front moved change otherwise alternate) :
    Movable front moved change (if condition then emit else otherwise)
      (if condition then follow else alternate) := by
  split
  · exact movable
  · exact otherwiseMovable

/-- A change of the pool does not see the code. -/
theorem onPool (build : Pool.Build α) :
    Movable front id 0 (Emit.onPool build) (Emit.onPool build) where
  carries := by
    intro body
    obtain ⟨pool, code, slots⟩ := body
    simp only [relocation, Body.behind, Emit.onPool]
    cases build pool <;> rfl
  depth_eq := by
    intro before value after done
    rw [(Emit.onPool_ok done).2]
    exact (Int.add_zero _).symm

theorem onSlots (build : EStateM Error Slots α) :
    Movable front id 0 (Emit.onSlots build) (Emit.onSlots build) where
  carries := by
    intro body
    obtain ⟨pool, code, slots⟩ := body
    simp only [relocation, Body.behind, Emit.onSlots]
    cases build slots <;> rfl
  depth_eq := by
    intro before value after done
    rw [(Emit.onSlots_ok done).2]
    exact (Int.add_zero _).symm

/-- A change of the code can be moved if it does not see what is in front. -/
theorem write
    {f : Code → Code}
    (commutes : ∀ code : Code, f (code.behind front) = (f code).behind front)
    (changes : ∀ code, (f code).depth = code.depth + change) :
    Movable front id change (Emit.write f) (Emit.write f) where
  carries := by
    rintro ⟨pool, code, slots⟩
    simp only [relocation, Body.behind, Emit.write, commutes]
    rfl
  depth_eq := by
    intro before _ after done
    rw [Emit.write_ok done]
    exact changes before.code

/-- An instruction that is known to change the height of the stack. -/
theorem append
    {f : Code → Code}
    {opcode : Opcode}
    {operands : List UInt8}
    (known : opcode.stackEffect? = some change)
    (same : ∀ code, f code = code.append opcode operands) :
    Movable front id change (Emit.write f) (Emit.write f) := by
  refine .write (fun code => ?_) fun code => ?_
  · rw [same, same, Code.append_behind]
  · rw [same, Code.depth_append code known]

theorem instruction {opcode : Opcode} (known : opcode.stackEffect? = some change) :
    Movable front id change (Emit.instruction opcode) (Emit.instruction opcode) :=
  .append known fun _ => rfl

theorem load (type : StaticType) (slot : UInt8) :
    Movable front id 1 (Emit.load type slot) (Emit.load type slot) := by
  refine .append ?_ fun code => code.load_eq type.cell slot
  unfold Order.load
  split <;> rfl

theorem store (type : StaticType) (slot : UInt8) :
    Movable front id (-1) (Emit.store type slot) (Emit.store type slot) := by
  refine .append ?_ fun code => code.store_eq type.cell slot
  unfold Order.store
  split <;> rfl

theorem loadConstant (index : UInt16) :
    Movable front id 1 (Emit.loadConstant index) (Emit.loadConstant index) := by
  refine .append ?_ fun code => code.loadConstant_eq index
  unfold Order.constant
  split <;> rfl

theorem adjust (change : Int) :
    Movable front id change (Emit.write (·.adjust change)) (Emit.write (·.adjust change)) :=
  .write (fun code => code.adjust_behind front change) fun _ => rfl

/-- A call that takes the stream and one argument. -/
theorem invoke (method : UInt16) :
    Movable front id (-2) (Emit.write (·.invoke .invokeVirtual method (-2)))
      (Emit.write (·.invoke .invokeVirtual method (-2))) := by
  refine .write (fun code => ?_) fun code => rfl
  simp only [Code.invoke, Code.emitWord, Code.append_behind, Code.adjust_behind]

theorem pushInt (value : Int32) :
    Movable front id 1 (Emit.pushInt value) (Emit.pushInt value) := by
  unfold Emit.pushInt
  dsimp only
  split
  · exact .instruction rfl
  · split
    · exact .append rfl fun _ => rfl
    · split
      · exact .append rfl fun _ => rfl
      · exact .bind (.onPool _) .loadConstant

/-- A name is looked up without regard to the code. -/
theorem resolve (target : Identifier) :
    Movable front id 0 (Emit.resolve target) (Emit.resolve target) where
  carries := by
    refine .bind .get fun body => ?_
    have sameSlots : (body.behind front).slots = body.slots := rfl
    simp only [relocation, sameSlots]
    cases body.slots.resolve? target.name with
    | some found => exact .pure found
    | none => exact .throw _
  depth_eq := by
    intro before found after done
    obtain ⟨-, rfl⟩ := Emit.resolve_ok done
    exact (Int.add_zero _).symm

theorem forget (name : String) :
    Movable front id 0 (modify fun built => { built with slots := built.slots.remove name })
      (modify fun built => { built with slots := built.slots.remove name }) where
  carries := .modify fun _ => rfl
  depth_eq := by
    rintro before _ _ ⟨⟩
    exact (Int.add_zero _).symm

/-! ## Branches -/

theorem position : Movable front (front.position + ·) 0 Emit.position Emit.position where
  carries := by
    intro body
    exact congrArg (EStateM.Result.ok · (body.behind front)) (body.code.position_behind front)
  depth_eq := by
    intro before place after done
    obtain ⟨-, rfl⟩ := Emit.position_ok done
    exact (Int.add_zero _).symm

/-- An open branch moves by the code in front. -/
theorem jump {opcode : Opcode} (known : opcode.stackEffect? = some change) :
    Movable front (Jump.behind · front) change (Emit.jump opcode) (Emit.jump opcode) := by
  refine .bind .position fun address => ?_
  refine .bind (.append known fun _ => rfl) fun _ => ?_
  rw [Int.sub_zero, Int.sub_self]
  exact .pure (⟨address⟩ : Jump)

/-- A moved branch is filled in with the offset of the branch, since the end of the code moves with
it. -/
theorem patch (branch : Jump) :
    Movable front id 0 (Emit.patch branch) (Emit.patch (branch.behind front)) where
  carries := by
    intro body
    have offset : ((body.behind front).code.position : Int) - (branch.behind front).address =
        (body.code.position : Int) - branch.address := by
      simp only [Body.behind, Code.position_behind, Jump.behind]
      omega
    show Emit.patch (branch.behind front) (body.behind front) = _
    rw [Emit.patch_eq, Emit.patch_eq, offset]
    split
    · have bytes := Code.redirect_behind front.bytes body.code.bytes branch.address
        body.code.position
      simp only [Body.behind, Code.position_behind, Jump.behind]
      exact congrArg
        (fun bytes => EStateM.Result.ok () { body.behind front with code.bytes := bytes }) bytes
    · rfl
  depth_eq := by
    intro before _ after done
    obtain ⟨-, -, rfl⟩ := Emit.patch_ok done
    exact (Int.add_zero _).symm

/-- A branch back to a moved target has the same offset. -/
theorem jumpBack {opcode : Opcode} (known : opcode.stackEffect? = some change) (target : Nat) :
    Movable front id change (Emit.jumpBack opcode target)
      (Emit.jumpBack opcode (front.position + target)) where
  carries := by
    intro body
    have offset : ((front.position + target : Nat) : Int) - (body.behind front).code.position =
        (target : Int) - body.code.position := by
      simp only [Body.behind, Code.position_behind]
      omega
    show Emit.jumpBack opcode (front.position + target) (body.behind front) = _
    rw [Emit.jumpBack_eq, Emit.jumpBack_eq, offset]
    split
    · simp only [Body.behind, Code.append_behind]
      rfl
    · rfl
  depth_eq := by
    intro before _ after done
    rw [Emit.jumpBack_eq] at done
    split at done
    · obtain ⟨-, rfl⟩ := EStateM.Result.ok.inj done
      exact before.code.depth_append known _
    · cases done

end Movable

/-! ## Expressions -/

theorem movable_require
    {code : Emit StaticType}
    (movable : Movable front id change code code)
    (expected : StaticType)
    (place : Position) :
    Movable front id change (require expected place code) (require expected place code) := by
  refine .bind movable fun found => ?_
  rw [Int.sub_self]
  exact .ite (.throw _) (.pure ())

/-- The code of a literal can be moved, and pushes one operand. -/
theorem movable_literal (place : Position) (value : Literal) :
    Movable front id 1 (literal place value) (literal place value) := by
  cases value with
  | number value =>
      simp only [literal]
      cases Number.toInt32? value with
      | some integer => exact .bind (.pushInt integer) fun _ => .pure _
      | none => exact .throw_bind _ _ _
  | string text =>
      exact .bind (.onPool _) fun index => .bind (.loadConstant index) fun _ => .pure _
  | boolean value => exact .bind (.pushInt _) fun _ => .pure _
  | null => exact .throw _

theorem movable_comparison (relation : Machine.Relation) :
    Movable front id (-1) (comparison relation) (comparison relation) := by
  refine .bind (.jump rfl) fun whenTrue => .bind (.pushInt 0) fun _ => ?_
  refine .bind (.jump rfl) fun done => .bind (.patch whenTrue) fun _ => ?_
  exact .bind (.adjust (-1)) fun _ => .bind (.pushInt 1) fun _ => .patch done

theorem movable_requireOperands (operands : Operands) (expected : StaticType) :
    Movable front id 0 (operands.require expected) (operands.require expected) :=
  .ite (.throw _) (.ite (.throw _) (.pure ()))

theorem movable_refuseTexts (operands : Operands) (construct : Unsupported) :
    Movable front id 0 (operands.refuseTexts construct) (operands.refuseTexts construct) :=
  .ite (.throw _) (.pure ())

theorem movable_arithmetic (operands : Operands) (operation : Machine.Arithmetic) :
    Movable front id (-1) (arithmetic operands operation) (arithmetic operands operation) :=
  .bind (movable_requireOperands operands .int) fun _ => .bind (.instruction rfl) fun _ => .pure _

theorem movable_ordering (operands : Operands) (relation : Machine.Relation) :
    Movable front id (-1) (ordering operands relation) (ordering operands relation) :=
  .bind (movable_requireOperands operands .int) fun _ =>
    .bind (movable_comparison relation) fun _ => .pure _

theorem movable_logical (operands : Operands) (operation : Machine.Arithmetic) :
    Movable front id (-1) (logical operands operation) (logical operands operation) :=
  .bind (movable_requireOperands operands .boolean) fun _ =>
    .bind (.instruction rfl) fun _ => .pure _

theorem movable_equality (operands : Operands) :
    Movable front id (-1) (equality operands) (equality operands) := by
  refine .bind (movable_refuseTexts operands .textComparison) fun _ => ?_
  exact .ite (.throw_bind _ _ _) (.bind (movable_comparison .equal) fun _ => .pure _)

/-- The code of an operator can be moved, and leaves one operand of two. -/
theorem movable_operation (operands : Operands) (operator : BinaryOperator) :
    Movable front id (-1) (operation operands operator) (operation operands operator) := by
  cases operator with
  | add => exact .bind (movable_refuseTexts operands _) fun _ => movable_arithmetic operands _
  | subtract | multiply | divide | modulo => exact movable_arithmetic operands _
  | equal => exact movable_equality operands
  | lessThan | lessOrEqual | greaterThan | greaterOrEqual => exact movable_ordering operands _
  | and | or => exact movable_logical operands _

/-- The code of an assignment can be moved, and leaves its value only if that is kept. -/
theorem movable_assignment
    (target : Identifier)
    {value : Emit StaticType}
    (movable : Movable front id 1 value value)
    (valuePosition : Position)
    (keep : Bool) :
    Movable front id (if keep then 1 else 0) (assignment target value valuePosition keep)
      (assignment target value valuePosition keep) := by
  refine .bind (.resolve target) fun found => ?_
  refine .bind (movable_require movable found.type valuePosition) fun _ => ?_
  cases keep with
  | true => exact .bind (.instruction rfl) fun _ => .bind (.store _ _) fun _ => .pure _
  | false => exact .bind (.store _ _) fun _ => .pure _

/-- The code of an expression can be moved, and leaves one value. -/
theorem movable_expression (e : Expression) :
    Movable front id 1 (expression e) (expression e) := by
  induction e with
  | literal value place => exact movable_literal place value
  | name target => exact .bind (.resolve target) fun found => .bind (.load _ _) fun _ => .pure _
  | negate argument place argumentMovable =>
      rw [expression]
      refine .bind (movable_require argumentMovable .int argument.position) fun _ => ?_
      exact .bind (.instruction rfl) fun _ => .pure _
  | binary operator left right place leftMovable rightMovable =>
      rw [expression]
      exact .bind leftMovable fun _ => .bind rightMovable fun _ => movable_operation _ operator
  | assign target value valueMovable =>
      rw [expression]
      exact movable_assignment target valueMovable value.position true

/-! ## Statements -/

theorem movable_condition (test : Expression) :
    Movable front id 1 (condition test) (condition test) :=
  .bind (movable_expression test) fun _ => .ite (.throw _) (.pure ())

theorem movable_print (argument : Expression) :
    Movable front id 0 (print argument) (print argument) := by
  refine .bind (.onPool _) fun _ => .bind (.append rfl fun _ => rfl) fun _ => ?_
  exact .bind (movable_expression argument) fun _ => .bind (.onPool _) .invoke

theorem movable_declaration (target : Identifier) (init : Option Expression) :
    Movable front id 0 (declaration target init) (declaration target init) := by
  have bound (type : StaticType) : Movable front id (-1)
      (do let slot ← Emit.onSlots (Slots.declare target type); Emit.store type slot)
      (do let slot ← Emit.onSlots (Slots.declare target type); Emit.store type slot) :=
    .bind (.onSlots _) fun slot => .store type slot
  cases init with
  | some value => exact .bind (movable_expression value) bound
  | none =>
      have int : Movable front id 0 (pure StaticType.int) (pure StaticType.int) :=
        .pure StaticType.int
      exact .bind (.pushInt 0) fun _ => .bind int bound

theorem movable_effect (e : Expression) :
    Movable front id 0 (effect e) (effect e) := by
  have dropped : Movable front id 0 (do let _ ← expression e; Emit.instruction .pop)
      (do let _ ← expression e; Emit.instruction .pop) :=
    .bind (movable_expression e) fun _ => .instruction rfl
  cases e with
  | assign target value =>
      exact .bind (movable_assignment target (movable_expression value) value.position false)
        fun _ => .pure ()
  | literal | name | negate | binary => exact dropped

section Parts

variable {body : Emit Unit} (bodyMovable : Movable front id 0 body body)
include bodyMovable

/-- The code of a counting loop can be moved, if that of its body can. -/
theorem movable_count (counter : Identifier) (start stop : Expression) :
    Movable front id 0 (count counter start stop body) (count counter start stop body) := by
  refine .bind (movable_require (movable_expression start) _ _) fun _ => ?_
  refine .bind (movable_require (movable_expression stop) _ _) fun _ => ?_
  refine .bind (.onSlots _) fun stopSlot => .bind (.store _ _) fun _ => ?_
  refine .bind (.onSlots _) fun slot => .bind (.store _ _) fun _ => ?_
  refine .bind .position fun head => .bind (.load _ _) fun _ => .bind (.load _ _) fun _ => ?_
  refine .bind (.jump rfl) fun done => .bind bodyMovable fun _ => ?_
  refine .bind (.append rfl fun _ => rfl) fun _ => .bind (.jumpBack rfl head) fun _ => ?_
  exact .bind (.patch done) fun _ => .forget counter.name

theorem movable_loop (test : Expression) :
    Movable front id 0 (loop test body) (loop test body) := by
  refine .bind .position fun head => .bind (movable_condition test) fun _ => ?_
  refine .bind (.jump rfl) fun done => .bind bodyMovable fun _ => ?_
  exact .bind (.jumpBack rfl head) fun _ => .patch done

/-- The first clause can be moved, and its open branches with it. -/
theorem movable_firstClause (test : Expression) :
    Movable front (Exits.behind · front) 0 (firstClause test body) (firstClause test body) := by
  refine .bind (movable_condition test) fun _ => .bind (.jump rfl) fun next => ?_
  refine .bind bodyMovable fun _ => ?_
  have moved : Exits.behind ⟨next, #[]⟩ front = ⟨next.behind front, #[]⟩ := by
    simp [Exits.behind]
  exact moved ▸ .pure (⟨next, #[]⟩ : Exits)

theorem movable_furtherClause (exits : Exits) (test : Expression) :
    Movable front (Exits.behind · front) 0 (furtherClause exits test body)
      (furtherClause (exits.behind front) test body) := by
  refine .bind (.jump rfl) fun finished => .bind (.patch exits.next) fun _ => ?_
  refine .bind (movable_condition test) fun _ => .bind (.jump rfl) fun next => ?_
  refine .bind bodyMovable fun _ => ?_
  have moved : Exits.behind ⟨next, exits.ends.push finished⟩ front =
      ⟨next.behind front, (exits.behind front).ends.push (finished.behind front)⟩ := by
    simp [Exits.behind]
  exact moved ▸ .pure (⟨next, exits.ends.push finished⟩ : Exits)

end Parts

theorem movable_patchAll (branches : List Jump) :
    Movable front id 0 (patchAll branches) (patchAll (branches.map (·.behind front))) := by
  induction branches with
  | nil => exact .pure ()
  | cons branch rest inductionHypothesis =>
      exact .bind (.patch branch) fun _ => inductionHypothesis

theorem movable_closeClauses (exits : Exits) :
    Movable front id 0 (closeClauses exits) (closeClauses (exits.behind front)) := by
  refine .bind (.patch exits.next) fun _ => ?_
  have ends : (exits.behind front).ends.toList = exits.ends.toList.map (·.behind front) :=
    Array.toList_map
  rw [ends]
  exact movable_patchAll exits.ends.toList

theorem movable_closeWith
    (exits : Exits)
    {alternate : Emit Unit}
    (movable : Movable front id 0 alternate alternate) :
    Movable front id 0 (closeWith exits alternate) (closeWith (exits.behind front) alternate) := by
  refine .bind (.jump rfl) fun finished => .bind (.patch exits.next) fun _ => ?_
  refine .bind movable fun _ => ?_
  have ends : ((exits.behind front).ends.push (finished.behind front)).toList =
      (exits.ends.push finished).toList.map (·.behind front) := by
    simp [Exits.behind]
  rw [ends]
  exact movable_patchAll (exits.ends.push finished).toList

mutual

/-- The code of a statement can be moved, and leaves the stack as high as it was. -/
theorem movable_statement (source : Statement) :
    Movable front id 0 (statement source) (statement source) := by
  match source with
  | .print argument _ =>
      rw [statement]
      exact movable_print argument
  | .declare target init =>
      rw [statement]
      exact movable_declaration target init
  | .conditional test body elseIfs alternate =>
      rw [statement]
      refine .bind (movable_firstClause (movable_statements body) test) fun exits => ?_
      refine .bind (movable_clauses exits elseIfs) fun exits => ?_
      exact .ite (movable_closeClauses exits)
        (movable_closeWith exits (movable_statements alternate))
  | .count counter start stop body =>
      rw [statement]
      exact movable_count (movable_statements body) counter start stop
  | .loop test body =>
      rw [statement]
      exact movable_loop (movable_statements body) test
  | .evaluate e =>
      rw [statement]
      exact movable_effect e

/-- Further clauses can be moved with the branches left open before them. -/
theorem movable_clauses (exits : Exits) (source : List Clause) :
    Movable front (Exits.behind · front) 0 (clauses exits source)
      (clauses (exits.behind front) source) := by
  match source with
  | [] =>
      rw [clauses, clauses]
      exact .pure exits
  | .mk test body :: rest =>
      rw [clauses, clauses]
      refine .bind (movable_furtherClause (movable_statements body) exits test) fun exits => ?_
      exact movable_clauses exits rest

theorem movable_statements (program : List Statement) :
    Movable front id 0 (statements program) (statements program) := by
  match program with
  | [] =>
      rw [statements]
      exact .pure ()
  | first :: rest =>
      rw [statements]
      exact .bind (movable_statement first) fun _ => movable_statements rest

end

/-! ## Two methods side by side -/

/-- Two methods with the same constants and variables, in which the same bytes have been written
behind those of either. -/
structure WroteAlike (first second : Array UInt8) (left right : Body) : Prop where
  pool_eq : left.pool = right.pool
  slots_eq : left.slots = right.slots
  bytes_eq : ∃ written, left.code.bytes = first ++ written ∧ right.code.bytes = second ++ written

/-- What a statement comes to does not depend on the code in front of it, however long the two
codes are and however high the stack has been in them: it is refused with the same error behind
both, or it is accepted behind both and leaves the stack empty.  Either way the same bytes have
been written behind all that was there. -/
theorem statement_relocates
    (source : Statement)
    (pool : Pool)
    (slots : Slots)
    (first second : Array UInt8)
    (firstMax secondMax : Int) :
    (∃ error left right,
      statement source ⟨pool, ⟨first, 0, firstMax⟩, slots⟩ = .error error left ∧
      statement source ⟨pool, ⟨second, 0, secondMax⟩, slots⟩ = .error error right ∧
      WroteAlike first second left right) ∨
    ∃ left right,
      statement source ⟨pool, ⟨first, 0, firstMax⟩, slots⟩ = .ok () left ∧
      statement source ⟨pool, ⟨second, 0, secondMax⟩, slots⟩ = .ok () right ∧
      WroteAlike first second left right ∧
      left.code.depth = 0 ∧ right.code.depth = 0 := by
  let alone : Body := ⟨pool, ⟨#[], 0, min firstMax secondMax⟩, slots⟩
  -- Either method is the one without code, moved behind the code that it has.
  have moved (bytes : Array UInt8) (maxDepth : Int) (above : min firstMax secondMax ≤ maxDepth) :
      statement source ⟨pool, ⟨bytes, 0, maxDepth⟩, slots⟩ =
        (relocation ⟨bytes, 0, maxDepth⟩).result id (statement source alone) := by
    have same : alone.behind ⟨bytes, 0, maxDepth⟩ = ⟨pool, ⟨bytes, 0, maxDepth⟩, slots⟩ := by
      simp [alone, Body.behind, Code.behind, above]
    rw [← same]
    exact (movable_statement source).carries alone
  have left := moved first firstMax (Int.min_le_left _ _)
  have right := moved second secondMax (Int.min_le_right _ _)
  cases ran : statement source alone with
  | error error last =>
      rw [ran] at left right
      exact .inl ⟨error, _, _, left, right, rfl, rfl, last.code.bytes, rfl, rfl⟩
  | ok _ last =>
      have movable : Movable .empty id 0 (statement source) (statement source) :=
        movable_statement source
      have depth : last.code.depth = 0 := movable.depth_eq alone () last ran
      rw [ran] at left right
      refine .inr ⟨_, _, left, right, ⟨rfl, rfl, last.code.bytes, rfl, rfl⟩, ?_, ?_⟩
      · simp [relocation, Body.behind, Code.behind, depth]
      · simp [relocation, Body.behind, Code.behind, depth]

end Compile
end Pictogram
