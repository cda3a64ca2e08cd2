import Pictogram.Compile
import Pictogram.Proofs.Code.Emit
import Pictogram.Proofs.Machine.Validity

/-!
# Constants refer to earlier ones

The generator asks for a constant only after those that it refers to.  So every
pool that it makes is linked, whether the code that goes with it is right or not.
-/

namespace Pictogram

namespace Class
namespace Pool

/-- An index keeps naming a constant of its kind when the pool is extended. -/
theorem Extends.names
    {first second : Pool}
    {index : UInt16}
    {kind : Constant → Bool}
    (kept : first.Extends second)
    (named : first.names index kind) :
    second.names index kind := by
  obtain ⟨constant, stands, isKind⟩ := names_iff.mp named
  exact names_iff.mpr ⟨constant, kept index constant stands, isKind⟩

/-- An index that a text is found at names a text. -/
theorem names_of_text?
    {pool : Pool}
    {index : UInt16}
    {text : String}
    (found : pool.text? index = some text) :
    pool.names index Constant.isText := by
  unfold text? at found
  split at found
  · rename_i content stands
    exact names_iff.mpr ⟨_, stands, rfl⟩
  · cases found

/-- An index that a class name is found at names a class. -/
theorem names_of_className?
    {pool : Pool}
    {index : UInt16}
    {name : String}
    (found : pool.className? index = some name) :
    pool.names index Constant.isClass := by
  unfold className? at found
  split at found
  · rename_i place stands
    exact names_iff.mpr ⟨_, stands, rfl⟩
  · cases found

theorem linked_empty : empty.Linked := by
  intro index constant stands
  simp [get?_eq, empty] at stands

/-- A constant of a pool that has grown is an old one or the new one. -/
theorem eq_of_get?_append
    {pool : Pool}
    {constant other : Constant}
    {index : UInt16}
    (stands : (pool.append constant).get? index = some other) :
    pool.get? index = some other ∨ (index.toNat = pool.size + 1 ∧ other = constant) := by
  rw [get?_eq] at stands ⊢
  split at stands
  · cases stands
  · rename_i positive
    rw [if_neg positive]
    rw [← Array.getElem?_toList, toList_entries_append, Constant.entries] at stands
    rcases Nat.lt_or_ge (index.toNat - 1) pool.entries.toList.length with inside | outside
    · rw [List.getElem?_append_left inside, Array.getElem?_toList] at stands
      exact .inl stands
    · rw [List.getElem?_append_right outside, List.getElem?_cons] at stands
      split at stands
      · refine .inr ⟨?_, (Option.some.inj stands).symm⟩
        simp only [size, Array.length_toList] at *
        omega
      · split at stands
        · rw [List.getElem?_singleton] at stands
          split at stands <;> cases stands
        · cases stands

/-- An index that a constant is found at is not past the end of the pool. -/
theorem size_lt_of_get?
    {pool : Pool}
    {index : UInt16}
    {constant : Constant}
    (stands : pool.get? index = some constant) :
    index.toNat ≤ pool.size := by
  rw [get?_eq] at stands
  split at stands
  · cases stands
  · by_contra outside
    rw [Array.getElem?_eq_none (by simp only [size] at outside; omega)] at stands
    cases stands

/-- A sound pool whose constants refer to earlier ones. -/
structure WellLinked (pool : Pool) : Prop where
  sound : pool.Sound
  linked : pool.Linked

theorem wellLinked_empty : empty.WellLinked := ⟨sound_empty, linked_empty⟩

/-- A pool stays linked when the constants that the new one refers to are in it. -/
theorem add_wellLinked
    {pool after : Pool}
    {constant : Constant}
    {index : UInt16}
    (before : pool.WellLinked)
    (known : ∀ reference ∈ constant.references, pool.names reference.1 reference.2)
    (added : add constant pool = .ok index after) :
    after.WellLinked := by
  refine ⟨(add_ok before.sound added).1.sound, ?_⟩
  rcases add_cases constant pool with ⟨_, -, same⟩ | ⟨-, -, grown⟩ | ⟨-, -, refused⟩
  · cases same.symm.trans added
    exact before.linked
  · cases grown.symm.trans added
    have kept := extends_append pool constant
    intro place other stands reference present
    rcases eq_of_get?_append stands with old | ⟨behind, rfl⟩
    · obtain ⟨earlier, named⟩ := before.linked place other old reference present
      exact ⟨earlier, kept.names named⟩
    · have named := known reference present
      obtain ⟨_, found, -⟩ := names_iff.mp named
      have inside := size_lt_of_get? found
      exact ⟨UInt16.lt_iff_toNat_lt.mpr (by omega), kept.names named⟩
  · cases refused.symm.trans added

section Additions

variable {pool after : Pool} {index : UInt16} (before : pool.WellLinked)
include before

theorem text_wellLinked
    {text : String}
    (added : Pool.text text pool = .ok index after) :
    after.WellLinked :=
  add_wellLinked before (by simp [Constant.references]) added

theorem integer_wellLinked
    {value : Int32}
    (added : Pool.integer value pool = .ok index after) :
    after.WellLinked :=
  add_wellLinked before (by simp [Constant.references]) added

/-- A text is added before the string that refers to it. -/
theorem stringRef_wellLinked
    {text : String}
    (added : Pool.stringRef text pool = .ok index after) :
    after.WellLinked := by
  obtain ⟨place, middle, textAdded, added⟩ := Stateful.bind_eq_ok.mp added
  have named := names_of_text? (text_ok before.sound textAdded).2
  exact add_wellLinked (text_wellLinked before textAdded)
    (by simpa [Constant.references] using named) added

theorem classRef_wellLinked
    {name : String}
    (added : Pool.classRef name pool = .ok index after) :
    after.WellLinked := by
  obtain ⟨place, middle, textAdded, added⟩ := Stateful.bind_eq_ok.mp added
  have named := names_of_text? (text_ok before.sound textAdded).2
  exact add_wellLinked (text_wellLinked before textAdded)
    (by simpa [Constant.references] using named) added

theorem nameAndType_wellLinked
    {name descriptor : String}
    (added : Pool.nameAndType name descriptor pool = .ok index after) :
    after.WellLinked := by
  obtain ⟨namePlace, named, nameAdded, added⟩ := Stateful.bind_eq_ok.mp added
  obtain ⟨descriptorPlace, described, descriptorAdded, added⟩ := Stateful.bind_eq_ok.mp added
  have namedLinked := text_wellLinked before nameAdded
  have isName := names_of_text? (text_ok before.sound nameAdded).2
  obtain ⟨grown, stands⟩ := text_ok namedLinked.sound descriptorAdded
  have isDescriptor := names_of_text? stands
  refine add_wellLinked (text_wellLinked namedLinked descriptorAdded) ?_ added
  simpa [Constant.references] using ⟨grown.kept.names isName, isDescriptor⟩

/-- A class and a signature, from which a member is made. -/
theorem member_wellLinked
    {owner name descriptor : String}
    {reference : UInt16 → UInt16 → Constant}
    (refers : ∀ owner signature, (reference owner signature).references =
      [(owner, Constant.isClass), (signature, Constant.isSignature)])
    (added : (do
      let ownerPlace ← Pool.classRef owner
      let signature ← Pool.nameAndType name descriptor
      add (reference ownerPlace signature)) pool = .ok index after) :
    after.WellLinked := by
  obtain ⟨ownerPlace, owned, ownerAdded, added⟩ := Stateful.bind_eq_ok.mp added
  obtain ⟨signature, signed, signatureAdded, added⟩ := Stateful.bind_eq_ok.mp added
  have ownedLinked := classRef_wellLinked before ownerAdded
  have isOwner := names_of_className? (classRef_ok before.sound ownerAdded).2
  obtain ⟨grown, _, _, stands, -⟩ := nameAndType_ok ownedLinked.sound signatureAdded
  have isSignature : signed.names signature Constant.isSignature :=
    names_iff.mpr ⟨_, stands, rfl⟩
  refine add_wellLinked (nameAndType_wellLinked ownedLinked signatureAdded) ?_ added
  simpa [refers] using ⟨grown.kept.names isOwner, isSignature⟩

theorem fieldRef_wellLinked
    {owner name descriptor : String}
    (added : Pool.fieldRef owner name descriptor pool = .ok index after) :
    after.WellLinked :=
  member_wellLinked before (fun _ _ => rfl) added

theorem methodRef_wellLinked
    {owner name descriptor : String}
    (added : Pool.methodRef owner name descriptor pool = .ok index after) :
    after.WellLinked :=
  member_wellLinked before (fun _ _ => rfl) added

end Additions

end Pool
end Class

namespace Compile

open Pictogram.Class (Pool)
open Machine (Opcode)

/-- A part of the construction that leaves linked constants linked. -/
def KeepsLinks {α : Type} (emit : Emit α) : Prop :=
  ∀ before value after, before.pool.WellLinked → emit before = .ok value after →
    after.pool.WellLinked

namespace KeepsLinks

variable {α β : Type}

/-- Parts that keep the links keep them one after the other. -/
theorem bind
    {first : Emit α}
    {next : α → Emit β}
    (firstKeeps : KeepsLinks first)
    (nextKeeps : ∀ value, KeepsLinks (next value)) :
    KeepsLinks (first >>= next) := by
  intro before result after linked done
  obtain ⟨value, middle, first, rest⟩ := Stateful.bind_eq_ok.mp done
  exact nextKeeps value middle result after (firstKeeps before value middle linked first) rest

theorem pure (value : α) : KeepsLinks (Pure.pure value : Emit α) := by
  intro before result after linked done
  obtain ⟨-, rfl⟩ := Stateful.pure_eq_ok.mp done
  exact linked

theorem throw (error : Error) : KeepsLinks (MonadExcept.throw error : Emit α) :=
  fun _ _ _ _ done => absurd done Stateful.throw_ne_ok

theorem ite
    {condition : Prop}
    [Decidable condition]
    {first second : Emit α}
    (firstKeeps : KeepsLinks first)
    (secondKeeps : KeepsLinks second) :
    KeepsLinks (if condition then first else second) := by
  split
  · exact firstKeeps
  · exact secondKeeps

/-- A change of the code leaves the pool as it is. -/
theorem write (change : Code → Code) : KeepsLinks (Emit.write change) := by
  intro before _ after linked done
  rw [Emit.write_ok done]
  exact linked

/-- A change of the slots leaves the pool as it is. -/
theorem onSlots (change : EStateM Error Slots α) : KeepsLinks (Emit.onSlots change) := by
  intro before value after linked done
  rw [(Emit.onSlots_ok done).2]
  exact linked

/-- A change of the pool keeps the links if it does so by itself. -/
theorem onPool
    {build : Pool.Build α}
    (keeps : ∀ {pool value after}, pool.WellLinked → build pool = .ok value after →
      after.WellLinked) :
    KeepsLinks (Emit.onPool build) :=
  fun _ _ _ linked done => keeps linked (Emit.onPool_ok done).1

theorem position : KeepsLinks Emit.position := by
  intro before place after linked done
  obtain ⟨-, rfl⟩ := Emit.position_ok done
  exact linked

theorem resolve (id : Identifier) : KeepsLinks (Emit.resolve id) := by
  intro before found after linked done
  obtain ⟨-, rfl⟩ := Emit.resolve_ok done
  exact linked

theorem jump (opcode : Opcode) : KeepsLinks (Emit.jump opcode) :=
  .bind position fun _ => .bind (write _) fun _ => .pure _

theorem offset (source target : Nat) : KeepsLinks (Emit.offset source target) := by
  unfold Emit.offset
  split
  · exact .pure _
  · exact .throw _

theorem patch (branch : Jump) : KeepsLinks (Emit.patch branch) :=
  .bind position fun _ => .bind (offset _ _) fun _ => write _

theorem jumpBack (opcode : Opcode) (target : Nat) : KeepsLinks (Emit.jumpBack opcode target) :=
  .bind position fun _ => .bind (offset _ _) fun _ => write _

theorem pushInt (value : Int32) : KeepsLinks (Emit.pushInt value) := by
  unfold Emit.pushInt
  dsimp only
  split
  · exact write _
  · refine .ite (write _) (.ite (write _) ?_)
    exact .bind (.onPool fun linked => Pool.integer_wellLinked linked) fun _ => write _

end KeepsLinks

section Generator

open KeepsLinks

theorem keepsLinks_literal (position : Position) (value : Literal) :
    KeepsLinks (literal position value) := by
  cases value with
  | number number =>
      cases integral : Number.toInt32? number with
      | some integer =>
          simp only [literal, integral]
          exact .bind (pushInt _) fun _ => .pure _
      | none =>
          simp only [literal, integral]
          exact .bind (.throw _) fun _ => .pure _
  | string text =>
      exact .bind (.onPool fun linked => Pool.stringRef_wellLinked linked) fun _ =>
        .bind (write _) fun _ => .pure _
  | boolean truth => exact .bind (pushInt _) fun _ => .pure _
  | null => exact .throw _

theorem keepsLinks_comparison (relation : Machine.Relation) : KeepsLinks (comparison relation) :=
  .bind (jump _) fun _ => .bind (pushInt _) fun _ => .bind (jump _) fun _ =>
    .bind (patch _) fun _ => .bind (write _) fun _ => .bind (pushInt _) fun _ => patch _

theorem keepsLinks_operation (operands : Operands) (operator : BinaryOperator) :
    KeepsLinks (operation operands operator) := by
  have require (expected : StaticType) : KeepsLinks (operands.require expected) :=
    .ite (.throw _) (.ite (.throw _) (.pure _))
  have refuse (construct : Unsupported) : KeepsLinks (operands.refuseTexts construct) :=
    .ite (.throw _) (.pure _)
  have arithmetic (operation : Machine.Arithmetic) : KeepsLinks (arithmetic operands operation) :=
    .bind (require _) fun _ => .bind (write _) fun _ => .pure _
  have logical (operation : Machine.Arithmetic) : KeepsLinks (logical operands operation) :=
    .bind (require _) fun _ => .bind (write _) fun _ => .pure _
  have ordering (relation : Machine.Relation) : KeepsLinks (ordering operands relation) :=
    .bind (require _) fun _ => .bind (keepsLinks_comparison _) fun _ => .pure _
  cases operator with
  | add => exact .bind (refuse _) fun _ => arithmetic _
  | subtract | multiply | divide | modulo => exact arithmetic _
  | lessThan | lessOrEqual | greaterThan | greaterOrEqual => exact ordering _
  | and | or => exact logical _
  | equal =>
      have compared : KeepsLinks (comparison .equal >>= fun _ => pure StaticType.boolean) :=
        .bind (keepsLinks_comparison _) fun _ => .pure _
      exact .bind (refuse _) fun _ => .ite (.bind (.throw _) fun _ => compared) compared

theorem keepsLinks_require
    {code : Emit StaticType}
    (keeps : KeepsLinks code)
    (expected : StaticType)
    (position : Position) :
    KeepsLinks (require expected position code) :=
  .bind keeps fun _ => .ite (.throw _) (.pure _)

theorem keepsLinks_assignment
    {value : Emit StaticType}
    (keeps : KeepsLinks value)
    (target : Identifier)
    (position : Position)
    (keep : Bool) :
    KeepsLinks (assignment target value position keep) := by
  have stored (found : Local) :
      KeepsLinks (Emit.store found.type found.slot >>= fun _ => pure found.type) :=
    .bind (write _) fun _ => .pure _
  exact .bind (resolve _) fun found => .bind (keepsLinks_require keeps _ _) fun _ =>
    .ite (.bind (write _) fun _ => stored found) (stored found)

/-- Expressions keep the links. -/
theorem keepsLinks_expression (e : Expression) : KeepsLinks (expression e) := by
  induction e with
  | literal value position => exact keepsLinks_literal position value
  | name id => exact .bind (resolve _) fun _ => .bind (write _) fun _ => .pure _
  | negate argument position argumentKeeps =>
      exact .bind (keepsLinks_require argumentKeeps _ _) fun _ => .bind (write _) fun _ => .pure _
  | binary operator left right position leftKeeps rightKeeps =>
      exact .bind leftKeeps fun _ => .bind rightKeeps fun _ => keepsLinks_operation _ _
  | assign target value valueKeeps => exact keepsLinks_assignment valueKeeps _ _ _

theorem keepsLinks_condition (test : Expression) : KeepsLinks (condition test) :=
  .bind (keepsLinks_expression _) fun _ => .ite (.throw _) (.pure _)

theorem keepsLinks_print (argument : Expression) : KeepsLinks (print argument) :=
  .bind (.onPool fun linked => Pool.fieldRef_wellLinked linked) fun _ => .bind (write _) fun _ =>
    .bind (keepsLinks_expression _) fun _ =>
      .bind (.onPool fun linked => Pool.methodRef_wellLinked linked) fun _ => write _

theorem keepsLinks_declaration (id : Identifier) (init : Option Expression) :
    KeepsLinks (declaration id init) := by
  cases init with
  | none =>
      exact .bind (pushInt _) fun _ => .bind (.pure _) fun _ => .bind (onSlots _) fun _ => write _
  | some value =>
      exact .bind (keepsLinks_expression _) fun _ => .bind (onSlots _) fun _ => write _

theorem keepsLinks_effect (e : Expression) : KeepsLinks (effect e) := by
  cases e with
  | assign target value =>
      exact .bind (keepsLinks_assignment (keepsLinks_expression value) _ _ _) fun _ => .pure _
  | literal _ _ | name _ | negate _ _ | binary _ _ _ _ =>
      exact .bind (keepsLinks_expression _) fun _ => write _

theorem keepsLinks_count
    {body : Emit Unit}
    (keeps : KeepsLinks body)
    (counter : Identifier)
    (start stop : Expression) :
    KeepsLinks (count counter start stop body) := by
  have removed : KeepsLinks (modify fun built => { built with
      slots := built.slots.remove counter.name } : Emit Unit) := by
    intro before _ after linked done
    obtain ⟨-, rfl⟩ := EStateM.Result.ok.inj done
    exact linked
  exact .bind (keepsLinks_require (keepsLinks_expression _) _ _) fun _ =>
    .bind (keepsLinks_require (keepsLinks_expression _) _ _) fun _ =>
    .bind (onSlots _) fun _ => .bind (write _) fun _ => .bind (onSlots _) fun _ =>
    .bind (write _) fun _ => .bind position fun _ => .bind (write _) fun _ =>
    .bind (write _) fun _ => .bind (jump _) fun _ => .bind keeps fun _ =>
    .bind (write _) fun _ => .bind (jumpBack _ _) fun _ => .bind (patch _) fun _ => removed

theorem keepsLinks_loop {body : Emit Unit} (keeps : KeepsLinks body) (test : Expression) :
    KeepsLinks (loop test body) :=
  .bind position fun _ => .bind (keepsLinks_condition _) fun _ => .bind (jump _) fun _ =>
    .bind keeps fun _ => .bind (jumpBack _ _) fun _ => patch _

theorem keepsLinks_patchAll (branches : List Jump) : KeepsLinks (patchAll branches) := by
  induction branches with
  | nil => exact .pure _
  | cons branch rest restKeeps => exact .bind (patch _) fun _ => restKeeps

mutual

/-- Statements keep the links. -/
theorem keepsLinks_statement : (source : Statement) → KeepsLinks (statement source)
  | .print argument _ => keepsLinks_print argument
  | .declare id init => keepsLinks_declaration id init
  | .conditional test body elseIfs alternate => by
      have first : KeepsLinks (firstClause test (statements body)) :=
        .bind (keepsLinks_condition _) fun _ => .bind (jump _) fun _ =>
          .bind (keepsLinks_statements body) fun _ => .pure _
      have close (exits : Exits) : KeepsLinks (closeClauses exits) :=
        .bind (patch _) fun _ => keepsLinks_patchAll _
      have closeWith (exits : Exits) : KeepsLinks (closeWith exits (statements alternate)) :=
        .bind (jump _) fun _ => .bind (patch _) fun _ =>
          .bind (keepsLinks_statements alternate) fun _ => keepsLinks_patchAll _
      exact .bind first fun exits => .bind (keepsLinks_clauses elseIfs exits) fun later =>
        .ite (close _) (closeWith _)
  | .count counter start stop body =>
      keepsLinks_count (keepsLinks_statements body) counter start stop
  | .loop test body => keepsLinks_loop (keepsLinks_statements body) test
  | .evaluate e => keepsLinks_effect e

theorem keepsLinks_clauses : (elseIfs : List Clause) → (exits : Exits) →
    KeepsLinks (clauses exits elseIfs)
  | [] => fun _ => .pure _
  | .mk test body :: rest => fun exits => by
      have further : KeepsLinks (furtherClause exits test (statements body)) :=
        .bind (jump _) fun _ => .bind (patch _) fun _ => .bind (keepsLinks_condition _) fun _ =>
          .bind (jump _) fun _ => .bind (keepsLinks_statements body) fun _ => .pure _
      exact .bind further fun later => keepsLinks_clauses rest later

theorem keepsLinks_statements : (source : List Statement) → KeepsLinks (statements source)
  | [] => .pure _
  | first :: rest => .bind (keepsLinks_statement first) fun _ => keepsLinks_statements rest

end

end Generator

end Compile
end Pictogram
