import Pictogram.Proofs.Code.Statement

/-!
# The declarations of a program

All declarations in a statement, however deep inside, and what the generator's
scope owes to them.
-/

namespace Pictogram

mutual

/-- The names that a statement declares, each with its first value if it is given
one. -/
def Statement.declarations : Statement → List (Identifier × Option Expression)
  | .declare id init => [(id, init)]
  | .conditional _ body elseIfs alternate =>
    declarationsOf body ++ (clauseDeclarations elseIfs ++ declarationsOf alternate)
  | .count _ _ _ body => declarationsOf body
  | .loop _ body => declarationsOf body
  | .print _ _ | .evaluate _ => []

/-- The declarations of further clauses. -/
def clauseDeclarations : List Clause → List (Identifier × Option Expression)
  | [] => []
  | .mk _ body :: rest => declarationsOf body ++ clauseDeclarations rest

/-- The declarations of several statements. -/
def declarationsOf : List Statement → List (Identifier × Option Expression)
  | [] => []
  | first :: rest => first.declarations ++ declarationsOf rest

end

/-- Every declaration gives a first value. -/
def Initialized (program : Program) : Prop :=
  ∀ declaration ∈ declarationsOf program, declaration.2.isSome

/-- No declaration is inside a conditional or a loop. -/
def DeclaresOnTop (program : Program) : Prop :=
  ∀ statement ∈ program, (∃ id init, statement = .declare id init) ∨ statement.declarations = []

namespace Compile

open Pictogram.Class (Pool)

/-- The declarations of a part of a program. -/
def Part.declarations : Part → List (Identifier × Option Expression)
  | .one statement => statement.declarations
  | .all statements => declarationsOf statements

theorem declarationsOf_remaining (elseIfs : List Clause) (alternate : List Statement) :
    declarationsOf (remaining elseIfs alternate) =
      clauseDeclarations elseIfs ++ declarationsOf alternate := by
  cases elseIfs with
  | nil => rfl
  | cons clause rest =>
      cases clause
      simp [remaining, declarationsOf, Statement.declarations, clauseDeclarations]

/-- Without declarations the same names are in scope afterwards. -/
theorem PartTree.resolve?_eq
    {pool : Pool}
    {before after : Slots}
    {part : Part}
    {tree : Tree}
    (code : PartTree pool before part after tree)
    (nothing : part.declarations = []) :
    after.resolve? = before.resolve? := by
  induction code with
  | print _ _ _ | assign _ _ | drop _ | nil => rfl
  | declare _ _ | declareZero _ => cases nothing
  | onlyIf _ _ _ _ bodySame =>
      exact bodySame (List.append_eq_nil_iff.mp nothing).1
  | ifElse _ _ _ _ _ bodySame restSame =>
      obtain ⟨inBody, inRest⟩ := List.append_eq_nil_iff.mp nothing
      rw [restSame ((declarationsOf_remaining _ _).trans inRest), bodySame inBody]
  | @count _ _ _ _ counter _ _ _ _ _ _ _ _ _ _ hidden declared _ bodySame =>
      obtain ⟨-, -, rfl⟩ := Slots.hidden_ok hidden
      obtain ⟨free, -, -, rfl⟩ := Slots.declare_ok declared
      funext name
      rw [Slots.resolve?_remove, bodySame nothing, Slots.resolve?_declared]
      by_cases same : name = counter.name
      · rw [if_pos same, same]
        exact free.symm
      · rw [if_neg same, if_neg fun equal => same equal.symm]
        rfl
  | loop _ _ _ bodySame => exact bodySame nothing
  | cons _ _ firstSame restSame =>
      obtain ⟨inFirst, inRest⟩ := List.append_eq_nil_iff.mp nothing
      rw [restSame inRest, firstSame inFirst]

end Compile
end Pictogram
