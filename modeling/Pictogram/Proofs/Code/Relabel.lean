import Pictogram.Compile
import Pictogram.Proofs.Syntax.Relabel
import Pictogram.Proofs.Translation
import Mathlib.Logic.Function.Basic

/-!
# The code of relabelled programs

A relabelled program has the code and the constants of the program.  Only the variables in
scope have other names, and what is refused is reported relabelled.
-/

namespace Pictogram
namespace Compile

open Pictogram.Class (Pool)
open Translation (Carries)

/-- The error, relabelled. -/
def Error.relabel (relabel : Relabel) : Error → Error
  | .unsupported construct position => .unsupported construct (relabel.place position)
  | .mismatch expected found position => .mismatch expected found (relabel.place position)
  | .undeclared name position => .undeclared (relabel.name name) (relabel.place position)
  | .redeclared name position => .redeclared (relabel.name name) (relabel.place position)
  | .tooManyLocals limit => .tooManyLocals limit
  | .poolOverflow => .poolOverflow
  | .textTooLong size => .textTooLong size
  | .branchOutOfRange offset => .branchOutOfRange offset
  | .codeTooLarge size => .codeTooLarge size

/-! ## Slots with other names -/

/-- The variable with another name. -/
def Local.rename (rename : String → String) (found : Local) : Local :=
  { found with name := rename found.name }

/-- The slots with other names for their variables. -/
def Slots.rename (rename : String → String) (slots : Slots) : Slots :=
  { slots with locals := slots.locals.map (Local.rename rename) }

namespace Slots

variable {rename : String → String} (injective : rename.Injective)
include injective

/-- A renamed variable is found where the variable was. -/
theorem resolve?_rename (slots : Slots) (name : String) :
    (slots.rename rename).resolve? (rename name) =
      (slots.resolve? name).map (Local.rename rename) := by
  have sameTest : ((fun found : Local => decide (found.name = rename name)) ∘ Local.rename rename) =
      fun found => decide (found.name = name) := by
    funext found
    exact decide_eq_decide.mpr injective.eq_iff
  rw [resolve?, Slots.rename, List.find?_map, sameTest]
  rfl

/-- Removing a renamed variable is removing the variable. -/
theorem remove_rename (slots : Slots) (name : String) :
    (slots.rename rename).remove (rename name) = (slots.remove name).rename rename := by
  simp [remove, Slots.rename, List.filter_map, Function.comp_def, Local.rename,
    injective.eq_iff]

end Slots

/-- Slots with other names for their variables. -/
def relabelledSlots (relabel : Relabel) : Translation Error Slots where
  state := Slots.rename relabel.name
  error := Error.relabel relabel

/-- Constants, which no label shows up in. -/
def unlabelledPool (relabel : Relabel) : Translation Error Pool where
  state := id
  error := Error.relabel relabel

/-- A method with other names for its variables. -/
def relabelledBody (relabel : Relabel) : Translation Error Body where
  state body := { body with slots := body.slots.rename relabel.name }
  error := Error.relabel relabel

/-- The operands, relabelled. -/
def Operands.relabel (relabel : Relabel) (operands : Operands) : Operands where
  left := operands.left
  right := operands.right
  leftPosition := relabel.place operands.leftPosition
  rightPosition := relabel.place operands.rightPosition
  position := relabel.place operands.position

variable {relabel : Relabel} {α : Type}

/-- A hidden slot has no name, so a relabelling does not touch it. -/
theorem carries_hidden :
    (relabelledSlots relabel).Carries id Slots.hidden Slots.hidden := by
  intro slots
  have sameNext : ((relabelledSlots relabel).state slots).next = slots.next := rfl
  unfold Slots.hidden
  rw [sameNext]
  split <;> rfl

/-- Names that are kept apart are given the same slots. -/
theorem carries_declare
    (injective : relabel.name.Injective)
    (target : Identifier)
    (type : StaticType) :
    (relabelledSlots relabel).Carries id (Slots.declare target type)
      (Slots.declare (target.relabel relabel) type) := by
  refine .bind .get fun slots => ?_
  simp only [relabelledSlots, Identifier.relabel, Slots.resolve?_rename injective,
    Option.isSome_map]
  split
  · exact fun _ => rfl
  · refine .bind carries_hidden fun slot => ?_
    refine .bind (.modify fun slots => ?_) fun _ => .pure slot
    rfl

/-! ## Constants -/

/-- A constant is added, or refused, whatever the labels are. -/
theorem carries_add (constant : Class.Constant) :
    (unlabelledPool relabel).Carries id (Pool.add constant) (Pool.add constant) := by
  intro pool
  show Pool.add constant pool = _
  unfold Pool.add
  split
  · rfl
  · simp only
    split <;> rfl

theorem carries_text (text : String) :
    (unlabelledPool relabel).Carries id (Pool.text text) (Pool.text text) :=
  carries_add _

theorem carries_classRef (name : String) :
    (unlabelledPool relabel).Carries id (Pool.classRef name) (Pool.classRef name) :=
  .bind (carries_text name) fun _ => carries_add _

theorem carries_nameAndType (name descriptor : String) :
    (unlabelledPool relabel).Carries id (Pool.nameAndType name descriptor)
      (Pool.nameAndType name descriptor) :=
  .bind (carries_text name) fun _ => .bind (carries_text descriptor) fun _ => carries_add _

theorem carries_fieldRef (owner name descriptor : String) :
    (unlabelledPool relabel).Carries id (Pool.fieldRef owner name descriptor)
      (Pool.fieldRef owner name descriptor) :=
  .bind (carries_classRef owner) fun _ =>
    .bind (carries_nameAndType name descriptor) fun _ => carries_add _

theorem carries_methodRef (owner name descriptor : String) :
    (unlabelledPool relabel).Carries id (Pool.methodRef owner name descriptor)
      (Pool.methodRef owner name descriptor) :=
  .bind (carries_classRef owner) fun _ =>
    .bind (carries_nameAndType name descriptor) fun _ => carries_add _

/-- What the constants refuse is reported without labels. -/
theorem relabel_eq_of_unlabelled
    {build : Pool.Build α}
    (unlabelled : (unlabelledPool relabel).Carries id build build)
    {pool last : Pool}
    {error : Error}
    (built : build pool = .error error last) :
    error.relabel relabel = error := by
  have same : build pool = (unlabelledPool relabel).result id (build pool) := unlabelled pool
  rw [built] at same
  exact (EStateM.Result.error.inj same).1.symm

/-! ## Steps of the construction -/

/-- A change of the pool without labels does not touch the names of the variables. -/
theorem carries_onPool
    {build : Pool.Build α}
    (unlabelled : (unlabelledPool relabel).Carries id build build) :
    (relabelledBody relabel).Carries id (Emit.onPool build) (Emit.onPool build) := by
  intro body
  obtain ⟨pool, code, slots⟩ := body
  simp only [relabelledBody, Emit.onPool]
  cases built : build pool with
  | ok value last => rfl
  | error error last =>
      simp only [Translation.result, relabel_eq_of_unlabelled unlabelled built]

/-- A change of the slots is carried to the method that has them. -/
theorem carries_onSlots
    {change changed : EStateM Error Slots α}
    (carries : (relabelledSlots relabel).Carries id change changed) :
    (relabelledBody relabel).Carries id (Emit.onSlots change) (Emit.onSlots changed) := by
  intro body
  obtain ⟨pool, code, slots⟩ := body
  have same := carries slots
  simp only [relabelledSlots] at same
  simp only [relabelledBody, Emit.onSlots, same]
  cases change slots <;> rfl

theorem carries_write (f : Code → Code) :
    (relabelledBody relabel).Carries id (Emit.write f) (Emit.write f) := fun _ => rfl

theorem carries_position :
    (relabelledBody relabel).Carries id Emit.position Emit.position := fun _ => rfl

theorem carries_jump (opcode : Machine.Opcode) :
    (relabelledBody relabel).Carries id (Emit.jump opcode) (Emit.jump opcode) := fun _ => rfl

theorem carries_offset (source target : Nat) :
    (relabelledBody relabel).Carries id (Emit.offset source target)
      (Emit.offset source target) := by
  unfold Emit.offset Code.offsetBytes
  simp only
  split
  · rename_i bytes found
    exact .pure bytes
  · rename_i error found
    split at found
    · cases found
    · cases found
      exact .throw _

theorem carries_patch (branch : Jump) :
    (relabelledBody relabel).Carries id (Emit.patch branch) (Emit.patch branch) :=
  .bind carries_position fun here => .bind (carries_offset _ here) fun _ => carries_write _

theorem carries_jumpBack (opcode : Machine.Opcode) (target : Nat) :
    (relabelledBody relabel).Carries id (Emit.jumpBack opcode target)
      (Emit.jumpBack opcode target) :=
  .bind carries_position fun here => .bind (carries_offset here _) fun _ => carries_write _

theorem carries_pushInt (value : Int32) :
    (relabelledBody relabel).Carries id (Emit.pushInt value) (Emit.pushInt value) := by
  unfold Emit.pushInt
  simp only
  split
  · exact carries_write _
  · split
    · exact carries_write _
    · split
      · exact carries_write _
      · exact .bind (carries_onPool (carries_add _)) fun _ => carries_write _

/-- Names that are kept apart are resolved to the same slots. -/
theorem carries_resolve (injective : relabel.name.Injective) (target : Identifier) :
    (relabelledBody relabel).Carries (Local.rename relabel.name) (Emit.resolve target)
      (Emit.resolve (target.relabel relabel)) := by
  refine .bind .get fun body => ?_
  simp only [relabelledBody, Identifier.relabel, Slots.resolve?_rename injective]
  cases body.slots.resolve? target.name with
  | some found => exact .pure found
  | none => exact .throw _

/-! ## Expressions -/

theorem carries_require
    {code follow : Emit StaticType}
    (carries : (relabelledBody relabel).Carries id code follow)
    (expected : StaticType)
    (position : Position) :
    (relabelledBody relabel).Carries id (require expected position code)
      (require expected (relabel.place position) follow) := by
  exact .bind carries fun found => .ite (.throw _) (.pure ())

theorem carries_literal (position : Position) (value : Literal) :
    (relabelledBody relabel).Carries id (literal position value)
      (literal (relabel.place position) value) := by
  cases value with
  | number value =>
      simp only [literal]
      cases Number.toInt32? value with
      | some integer => exact .bind (carries_pushInt integer) fun _ => .pure _
      | none => exact fun _ => rfl
  | string text =>
      refine .bind (carries_onPool ?_) fun _ => .bind (carries_write _) fun _ => .pure _
      exact .bind (carries_text text) fun _ => carries_add _
  | boolean value => exact .bind (carries_pushInt _) fun _ => .pure _
  | null => exact .throw _

theorem carries_comparison (relation : Machine.Relation) :
    (relabelledBody relabel).Carries id (comparison relation) (comparison relation) := by
  refine .bind (carries_jump _) fun whenTrue => .bind (carries_pushInt 0) fun _ => ?_
  refine .bind (carries_jump _) fun done => .bind (carries_patch whenTrue) fun _ => ?_
  exact .bind (carries_write _) fun _ => .bind (carries_pushInt 1) fun _ => carries_patch done

theorem carries_requireOperands (operands : Operands) (expected : StaticType) :
    (relabelledBody relabel).Carries id (operands.require expected)
      ((operands.relabel relabel).require expected) :=
  .ite (.throw _) (.ite (.throw _) (.pure ()))

theorem carries_refuseTexts (operands : Operands) (construct : Unsupported) :
    (relabelledBody relabel).Carries id (operands.refuseTexts construct)
      ((operands.relabel relabel).refuseTexts construct) :=
  .ite (.throw _) (.pure ())

theorem carries_arithmetic (operands : Operands) (operation : Machine.Arithmetic) :
    (relabelledBody relabel).Carries id (arithmetic operands operation)
      (arithmetic (operands.relabel relabel) operation) :=
  .bind (carries_requireOperands operands .int) fun _ =>
    .bind (carries_write _) fun _ => .pure _

theorem carries_ordering (operands : Operands) (relation : Machine.Relation) :
    (relabelledBody relabel).Carries id (ordering operands relation)
      (ordering (operands.relabel relabel) relation) :=
  .bind (carries_requireOperands operands .int) fun _ =>
    .bind (carries_comparison relation) fun _ => .pure _

theorem carries_logical (operands : Operands) (operation : Machine.Arithmetic) :
    (relabelledBody relabel).Carries id (logical operands operation)
      (logical (operands.relabel relabel) operation) :=
  .bind (carries_requireOperands operands .boolean) fun _ =>
    .bind (carries_write _) fun _ => .pure _

theorem carries_equality (operands : Operands) :
    (relabelledBody relabel).Carries id (equality operands)
      (equality (operands.relabel relabel)) := by
  refine .bind (carries_refuseTexts operands .textComparison) fun _ => .ite (fun _ => rfl) ?_
  exact .bind (carries_comparison .equal) fun _ => .pure _

theorem carries_operation (operands : Operands) (operator : BinaryOperator) :
    (relabelledBody relabel).Carries id (operation operands operator)
      (operation (operands.relabel relabel) operator) := by
  cases operator with
  | add => exact .bind (carries_refuseTexts operands _) fun _ => carries_arithmetic operands _
  | subtract | multiply | divide | modulo => exact carries_arithmetic operands _
  | equal => exact carries_equality operands
  | lessThan | lessOrEqual | greaterThan | greaterOrEqual => exact carries_ordering operands _
  | and | or => exact carries_logical operands _

theorem carries_assignment
    (injective : relabel.name.Injective)
    (target : Identifier)
    {value follow : Emit StaticType}
    (carries : (relabelledBody relabel).Carries id value follow)
    (valuePosition : Position)
    (keep : Bool) :
    (relabelledBody relabel).Carries id (assignment target value valuePosition keep)
      (assignment (target.relabel relabel) follow (relabel.place valuePosition) keep) := by
  refine .bind (carries_resolve injective target) fun found => ?_
  refine .bind (carries_require carries found.type valuePosition) fun _ => ?_
  cases keep with
  | true =>
      exact .bind (carries_write _) fun _ => .bind (carries_write _) fun _ => .pure found.type
  | false => exact .bind (carries_write _) fun _ => .pure found.type

/-- A relabelled expression is written as the expression is. -/
theorem carries_expression (injective : relabel.name.Injective) (e : Expression) :
    (relabelledBody relabel).Carries id (expression e) (expression (e.relabel relabel)) := by
  induction e with
  | literal value position => exact carries_literal position value
  | name target =>
      refine .bind (carries_resolve injective target) fun found => ?_
      exact .bind (carries_write _) fun _ => .pure found.type
  | negate argument position argumentCarries =>
      rw [Expression.relabel, expression, expression, Expression.position_relabel]
      refine .bind (carries_require argumentCarries .int argument.position) fun _ => ?_
      exact .bind (carries_write _) fun _ => .pure _
  | binary operator left right position leftCarries rightCarries =>
      rw [Expression.relabel, expression, expression, Expression.position_relabel,
        Expression.position_relabel]
      refine .bind leftCarries fun leftType => .bind rightCarries fun rightType => ?_
      exact carries_operation ⟨leftType, rightType, left.position, right.position, position⟩
        operator
  | assign target value valueCarries =>
      rw [Expression.relabel, expression, expression, Expression.position_relabel]
      exact carries_assignment injective target valueCarries value.position true

/-! ## Statements -/

theorem carries_condition (injective : relabel.name.Injective) (test : Expression) :
    (relabelledBody relabel).Carries id (condition test) (condition (test.relabel relabel)) := by
  unfold condition
  rw [Expression.position_relabel]
  exact .bind (carries_expression injective test) fun found => .ite (.throw _) (.pure ())

theorem carries_print (injective : relabel.name.Injective) (argument : Expression) :
    (relabelledBody relabel).Carries id (print argument) (print (argument.relabel relabel)) := by
  refine .bind (carries_onPool (carries_fieldRef _ _ _)) fun _ => ?_
  refine .bind (carries_write _) fun _ => ?_
  refine .bind (carries_expression injective argument) fun type => ?_
  exact .bind (carries_onPool (carries_methodRef _ _ _)) fun _ => carries_write _

theorem carries_declaration
    (injective : relabel.name.Injective)
    (target : Identifier)
    (init : Option Expression) :
    (relabelledBody relabel).Carries id (declaration target init)
      (declaration (target.relabel relabel) (init.map (·.relabel relabel))) := by
  have bound (type : StaticType) : (relabelledBody relabel).Carries id
      (do let slot ← Emit.onSlots (Slots.declare target type); Emit.store type slot)
      (do let slot ← Emit.onSlots (Slots.declare (target.relabel relabel) type)
          Emit.store type slot) :=
    .bind (carries_onSlots (carries_declare injective target type)) fun _ => carries_write _
  cases init with
  | some value => exact .bind (carries_expression injective value) bound
  | none => exact .bind (carries_pushInt 0) fun _ => .bind (.pure StaticType.int) bound

theorem carries_effect (injective : relabel.name.Injective) (e : Expression) :
    (relabelledBody relabel).Carries id (effect e) (effect (e.relabel relabel)) := by
  have dropped : (relabelledBody relabel).Carries id
      (do let _ ← expression e; Emit.instruction .pop)
      (do let _ ← expression (e.relabel relabel); Emit.instruction .pop) :=
    .bind (carries_expression injective e) fun _ => carries_write _
  cases e with
  | assign target value =>
      rw [Expression.relabel, effect, effect, Expression.position_relabel]
      have assigned := carries_assignment injective target (carries_expression injective value)
        value.position false
      exact .bind assigned fun _ => .pure ()
  | literal | name | negate | binary => exact dropped

theorem carries_count
    (injective : relabel.name.Injective)
    (counter : Identifier)
    (start stop : Expression)
    {body follow : Emit Unit}
    (carries : (relabelledBody relabel).Carries id body follow) :
    (relabelledBody relabel).Carries id (count counter start stop body)
      (count (counter.relabel relabel) (start.relabel relabel) (stop.relabel relabel) follow) := by
  unfold count
  simp only [Expression.position_relabel]
  refine .bind (carries_require (carries_expression injective start) _ _) fun _ => ?_
  refine .bind (carries_require (carries_expression injective stop) _ _) fun _ => ?_
  refine .bind (carries_onSlots carries_hidden) fun stopSlot => .bind (carries_write _) fun _ => ?_
  refine .bind (carries_onSlots (carries_declare injective counter .int)) fun slot => ?_
  refine .bind (carries_write _) fun _ => .bind carries_position fun head => ?_
  refine .bind (carries_write _) fun _ => .bind (carries_write _) fun _ => ?_
  refine .bind (carries_jump _) fun done => .bind carries fun _ => ?_
  refine .bind (carries_write _) fun _ => ?_
  refine .bind (carries_jumpBack _ head) fun _ => .bind (carries_patch done) fun _ => ?_
  refine .modify fun built => ?_
  simp only [relabelledBody, Identifier.relabel, Slots.remove_rename injective]

theorem carries_loop
    (injective : relabel.name.Injective)
    (test : Expression)
    {body follow : Emit Unit}
    (carries : (relabelledBody relabel).Carries id body follow) :
    (relabelledBody relabel).Carries id (loop test body) (loop (test.relabel relabel) follow) := by
  refine .bind carries_position fun head => .bind (carries_condition injective test) fun _ => ?_
  refine .bind (carries_jump _) fun done => .bind carries fun _ => ?_
  exact .bind (carries_jumpBack _ head) fun _ => carries_patch done

theorem carries_firstClause
    (injective : relabel.name.Injective)
    (test : Expression)
    {body follow : Emit Unit}
    (carries : (relabelledBody relabel).Carries id body follow) :
    (relabelledBody relabel).Carries id (firstClause test body)
      (firstClause (test.relabel relabel) follow) := by
  refine .bind (carries_condition injective test) fun _ => .bind (carries_jump _) fun next => ?_
  exact .bind carries fun _ => .pure _

theorem carries_furtherClause
    (injective : relabel.name.Injective)
    (exits : Exits)
    (test : Expression)
    {body follow : Emit Unit}
    (carries : (relabelledBody relabel).Carries id body follow) :
    (relabelledBody relabel).Carries id (furtherClause exits test body)
      (furtherClause exits (test.relabel relabel) follow) := by
  refine .bind (carries_jump _) fun finished => .bind (carries_patch exits.next) fun _ => ?_
  refine .bind (carries_condition injective test) fun _ => .bind (carries_jump _) fun next => ?_
  exact .bind carries fun _ => .pure _

theorem carries_patchAll (branches : List Jump) :
    (relabelledBody relabel).Carries id (patchAll branches) (patchAll branches) := by
  induction branches with
  | nil => exact .pure ()
  | cons branch rest inductionHypothesis =>
      exact .bind (carries_patch branch) fun _ => inductionHypothesis

theorem carries_closeClauses (exits : Exits) :
    (relabelledBody relabel).Carries id (closeClauses exits) (closeClauses exits) :=
  .bind (carries_patch exits.next) fun _ => carries_patchAll _

theorem carries_closeWith
    (exits : Exits)
    {alternate follow : Emit Unit}
    (carries : (relabelledBody relabel).Carries id alternate follow) :
    (relabelledBody relabel).Carries id (closeWith exits alternate) (closeWith exits follow) := by
  refine .bind (carries_jump _) fun finished => .bind (carries_patch exits.next) fun _ => ?_
  exact .bind carries fun _ => carries_patchAll _

mutual

/-- A relabelled statement is written as the statement is. -/
theorem carries_statement (injective : relabel.name.Injective) (source : Statement) :
    (relabelledBody relabel).Carries id (statement source)
      (statement (source.relabel relabel)) := by
  match source with
  | .print argument position =>
      rw [Statement.relabel, statement, statement]
      exact carries_print injective argument
  | .declare target init =>
      rw [Statement.relabel, statement, statement]
      exact carries_declaration injective target init
  | .conditional test body elseIfs alternate =>
      rw [Statement.relabel, statement, statement, Program.isEmpty_relabel]
      refine .bind (carries_firstClause injective test (carries_statements injective body))
        fun exits => ?_
      refine .bind (carries_clauses injective exits elseIfs) fun exits => ?_
      exact .ite (carries_closeClauses exits)
        (carries_closeWith exits (carries_statements injective alternate))
  | .count counter start stop body =>
      rw [Statement.relabel, statement, statement]
      exact carries_count injective counter start stop (carries_statements injective body)
  | .loop test body =>
      rw [Statement.relabel, statement, statement]
      exact carries_loop injective test (carries_statements injective body)
  | .evaluate expression =>
      rw [Statement.relabel, statement, statement]
      exact carries_effect injective expression

theorem carries_clauses
    (injective : relabel.name.Injective)
    (exits : Exits)
    (source : List Clause) :
    (relabelledBody relabel).Carries id (clauses exits source)
      (clauses exits (relabelClauses relabel source)) := by
  match source with
  | [] =>
      rw [relabelClauses, clauses]
      exact .pure exits
  | .mk test body :: rest =>
      rw [relabelClauses, clauses, clauses]
      refine .bind (carries_furtherClause injective exits test (carries_statements injective body))
        fun exits => ?_
      exact carries_clauses injective exits rest

/-- A relabelled program is compiled as the program is. -/
theorem carries_statements (injective : relabel.name.Injective) (program : List Statement) :
    (relabelledBody relabel).Carries id (statements program)
      (statements (Program.relabel relabel program)) := by
  match program with
  | [] =>
      rw [Program.relabel, statements]
      exact .pure ()
  | first :: rest =>
      rw [Program.relabel, statements, statements]
      exact .bind (carries_statement injective first) fun _ => carries_statements injective rest

end

/-! ## Classes -/

/-- What is refused is reported without labels. -/
def Unlabelled (result : Except Error α) : Prop :=
  ∀ error, result = .error error → ∀ relabel, error.relabel relabel = error

namespace Unlabelled

variable {β : Type}

protected theorem ok (value : α) : Unlabelled (.ok value) := nofun

protected theorem bind
    {result : Except Error α}
    {next : α → Except Error β}
    (unlabelled : Unlabelled result)
    (nextUnlabelled : ∀ value, Unlabelled (next value)) :
    Unlabelled (result >>= next) := by
  cases result with
  | ok value => exact nextUnlabelled value
  | error error =>
      rintro _ ⟨⟩
      exact unlabelled error rfl

protected theorem mapM
    {f : α → Except Error β}
    (unlabelled : ∀ value, Unlabelled (f value))
    (list : List α) :
    Unlabelled (list.mapM f) := by
  induction list with
  | nil => exact .ok []
  | cons first rest inductionHypothesis =>
      rw [List.mapM_cons]
      exact (unlabelled first).bind fun _ => inductionHypothesis.bind fun _ => .ok _

/-- A result that is reported without labels is not changed by a relabelling. -/
theorem mapError_eq {result : Except Error α} (unlabelled : Unlabelled result)
    (relabel : Relabel) : result.mapError (·.relabel relabel) = result := by
  cases result with
  | ok value => rfl
  | error error => exact congrArg Except.error (unlabelled error rfl relabel)

end Unlabelled

/-- A constant that cannot be written is reported without labels. -/
theorem unlabelled_constantBytes (constant : Class.Constant) : Unlabelled constant.bytes := by
  have body : Unlabelled constant.body := by
    cases constant with
    | text content =>
        refine Unlabelled.bind ?_ fun _ => .ok _
        unfold Class.EncodedText.bytes
        simp only
        split
        · exact .ok _
        · rintro _ ⟨⟩ relabel
          rfl
    | integer | float | long | double | classRef | stringRef | fieldRef | methodRef
    | interfaceMethodRef | nameAndType => exact .ok _
  exact body.bind fun _ => .ok _

/-- A class file that cannot be written is reported without labels. -/
theorem unlabelled_fileBytes (file : Class.File) : Unlabelled file.bytes := by
  refine Unlabelled.bind ?_ fun _ => .ok _
  exact (Unlabelled.mapM unlabelled_constantBytes _).bind fun _ => .ok _

theorem carries_opening (options : Options) :
    (unlabelledPool relabel).Carries id (opening options) (opening options) := by
  refine .bind (carries_classRef _) fun _ => .bind (carries_classRef _) fun _ => ?_
  refine .bind (carries_text _) fun codeName => .bind ?_ fun _ => .pure _
  refine .bind (carries_methodRef _ _ _) fun _ => .bind (carries_text _) fun _ => ?_
  exact .bind (carries_text _) fun _ => .pure _

theorem carries_closing (options : Options) (draft : Draft) :
    (unlabelledPool relabel).Carries id (closing options draft) (closing options draft) := by
  refine .bind (carries_text _) fun _ => .bind (carries_text _) fun _ => ?_
  exact .bind (carries_text _) fun _ => .bind (carries_text _) fun _ => .pure _

/-- A class that cannot be finished is reported without labels. -/
theorem unlabelled_classFile (options : Options) (draft : Draft) :
    Unlabelled (draft.classFile options) := by
  intro error refused relabel
  unfold Draft.classFile at refused
  split at refused
  · rename_i found last built
    obtain rfl := Except.error.inj refused
    exact relabel_eq_of_unlabelled (carries_closing options draft) built
  · cases refused

/-- The methods of a relabelled program are those of the program. -/
theorem draft_relabel
    (injective : relabel.name.Injective)
    (options : Options)
    (program : Program) :
    draft options (Program.relabel relabel program) =
      (draft options program).mapError (·.relabel relabel) := by
  unfold draft
  cases opened : opening options .empty with
  | error error last =>
      have same : error.relabel relabel = error :=
        relabel_eq_of_unlabelled (carries_opening options) opened
      exact congrArg Except.error same.symm
  | ok opening pool =>
      have carried : (relabelledBody relabel).Carries id (mainBody program)
          (mainBody (Program.relabel relabel program)) :=
        .bind (carries_statements injective program) fun _ => carries_write _
      have begun : (relabelledBody relabel).state (.empty pool) = .empty pool := rfl
      have ran := carried (.empty pool)
      rw [begun] at ran
      simp only [ran]
      cases mainBody program (.empty pool) with
      | error error last => rfl
      | ok value body =>
          show (body.code.finish >>= _) = Except.mapError _ (body.code.finish >>= _)
          unfold Code.finish
          split <;> rfl

/-- The class of a relabelled program is that of the program, byte by byte, and where there is
none the error is relabelled. -/
theorem classBytes_relabel
    (injective : relabel.name.Injective)
    (options : Options)
    (program : Program) :
    classBytes options (Program.relabel relabel program) =
      (classBytes options program).mapError (·.relabel relabel) := by
  unfold classBytes classFile
  rw [draft_relabel injective]
  cases draft options program with
  | error error => rfl
  | ok draft =>
      have rest : Unlabelled (draft.classFile options >>= Class.File.bytes) :=
        (unlabelled_classFile options draft).bind unlabelled_fileBytes
      exact (rest.mapError_eq relabel).symm

end Compile
end Pictogram
