import Pictogram.Syntax

/-!
# Programs with other names and positions

A relabelling gives every variable another name and every position another
place.  The rest of a program stays as it is.
-/

namespace Pictogram

/-- Other names, and other places. -/
structure Relabel where
  /-- The name that stands for a name. -/
  name : String → String
  /-- The place that stands for a place. -/
  place : Position → Position

/-- The relabelling that keeps the names and moves the places. -/
def Relabel.moving (place : Position → Position) : Relabel := ⟨id, place⟩

/-- The relabelling that changes the names and forgets the places. -/
def Relabel.unplaced (name : String → String) : Relabel := ⟨name, fun _ => .origin⟩

/-- The identifier, relabelled. -/
def Identifier.relabel (relabel : Relabel) (id : Identifier) : Identifier :=
  ⟨relabel.name id.name, relabel.place id.position⟩

/-- The expression, relabelled. -/
def Expression.relabel (relabel : Relabel) : Expression → Expression
  | .literal value position => .literal value (relabel.place position)
  | .name id => .name (id.relabel relabel)
  | .negate argument position => .negate (argument.relabel relabel) (relabel.place position)
  | .binary operator left right position =>
    .binary operator (left.relabel relabel) (right.relabel relabel) (relabel.place position)
  | .assign target value => .assign (target.relabel relabel) (value.relabel relabel)

/-- A relabelled expression is at the relabelled place. -/
@[simp] theorem Expression.position_relabel (relabel : Relabel) (e : Expression) :
    (e.relabel relabel).position = relabel.place e.position := by
  cases e <;> rfl

mutual

/-- The statement, relabelled. -/
def Statement.relabel (relabel : Relabel) : Statement → Statement
  | .print argument position => .print (argument.relabel relabel) (relabel.place position)
  | .declare id init => .declare (id.relabel relabel) (init.map (·.relabel relabel))
  | .conditional test body elseIfs alternate =>
    .conditional (test.relabel relabel) (Program.relabel relabel body)
      (relabelClauses relabel elseIfs) (Program.relabel relabel alternate)
  | .count counter start stop body =>
    .count (counter.relabel relabel) (start.relabel relabel) (stop.relabel relabel)
      (Program.relabel relabel body)
  | .loop test body => .loop (test.relabel relabel) (Program.relabel relabel body)
  | .evaluate expression => .evaluate (expression.relabel relabel)

/-- The clauses, relabelled. -/
def relabelClauses (relabel : Relabel) : List Clause → List Clause
  | [] => []
  | .mk test body :: rest =>
    .mk (test.relabel relabel) (Program.relabel relabel body) :: relabelClauses relabel rest

/-- The program, relabelled. -/
def Program.relabel (relabel : Relabel) : List Statement → List Statement
  | [] => []
  | first :: rest => first.relabel relabel :: Program.relabel relabel rest

end

/-- No statement is lost. -/
theorem Program.isEmpty_relabel (relabel : Relabel) (program : List Statement) :
    (Program.relabel relabel program).isEmpty = program.isEmpty := by
  cases program <;> rfl

/-! ## The relabelling that changes nothing -/

theorem Expression.relabel_moving_id (e : Expression) : e.relabel (.moving id) = e := by
  induction e with
  | literal value position => rfl
  | name target => rfl
  | negate argument position argumentSame =>
      rw [relabel, argumentSame]
      rfl
  | binary operator left right position leftSame rightSame =>
      rw [relabel, leftSame, rightSame]
      rfl
  | assign target value valueSame =>
      rw [relabel, valueSame]
      rfl

mutual

theorem Statement.relabel_moving_id (s : Statement) : s.relabel (.moving id) = s := by
  match s with
  | .print argument position =>
      rw [Statement.relabel, argument.relabel_moving_id]
      rfl
  | .declare target none => rfl
  | .declare target (some value) =>
      rw [Statement.relabel, Option.map_some, value.relabel_moving_id]
      rfl
  | .conditional test body elseIfs alternate =>
      rw [Statement.relabel, test.relabel_moving_id, Program.relabel_moving_id,
        relabelClauses_moving_id, Program.relabel_moving_id]
  | .count counter start stop body =>
      rw [Statement.relabel, start.relabel_moving_id, stop.relabel_moving_id,
        Program.relabel_moving_id]
      rfl
  | .loop test body =>
      rw [Statement.relabel, test.relabel_moving_id, Program.relabel_moving_id]
  | .evaluate expression => rw [Statement.relabel, expression.relabel_moving_id]

theorem relabelClauses_moving_id (clauses : List Clause) :
    relabelClauses (.moving id) clauses = clauses := by
  match clauses with
  | [] => rfl
  | .mk test body :: rest =>
      rw [relabelClauses, test.relabel_moving_id, Program.relabel_moving_id,
        relabelClauses_moving_id]

theorem Program.relabel_moving_id (program : List Statement) :
    Program.relabel (.moving id) program = program := by
  match program with
  | [] => rfl
  | first :: rest => rw [Program.relabel, first.relabel_moving_id, Program.relabel_moving_id]

end

/-! ## The names of a program -/

/-- The names in an expression. -/
def Expression.names : Expression → List String
  | .literal _ _ => []
  | .name id => [id.name]
  | .negate argument _ => argument.names
  | .binary _ left right _ => left.names ++ right.names
  | .assign target value => target.name :: value.names

mutual

/-- The names in a statement. -/
def Statement.names : Statement → List String
  | .print argument _ => argument.names
  | .declare id init => id.name :: init.elim [] Expression.names
  | .conditional test body elseIfs alternate =>
    test.names ++ (Program.names body ++ (clauseNames elseIfs ++ Program.names alternate))
  | .count counter start stop body =>
    counter.name :: (start.names ++ (stop.names ++ Program.names body))
  | .loop test body => test.names ++ Program.names body
  | .evaluate expression => expression.names

/-- The names in clauses. -/
def clauseNames : List Clause → List String
  | [] => []
  | .mk test body :: rest => test.names ++ (Program.names body ++ clauseNames rest)

/-- The names in a program. -/
def Program.names : List Statement → List String
  | [] => []
  | first :: rest => first.names ++ Program.names rest

end

/-! ## Only the names that occur matter -/

section Congruence

variable {first second : String → String} {place : Position → Position}

theorem Identifier.relabel_congr
    {id : Identifier}
    (same : first id.name = second id.name) :
    id.relabel ⟨first, place⟩ = id.relabel ⟨second, place⟩ := by
  simp only [relabel, same]

/-- An expression is relabelled by what happens to the names in it. -/
theorem Expression.relabel_congr
    {e : Expression}
    (same : ∀ name ∈ e.names, first name = second name) :
    e.relabel ⟨first, place⟩ = e.relabel ⟨second, place⟩ := by
  induction e with
  | literal value position => rfl
  | name id => rw [relabel, relabel, id.relabel_congr (same id.name (by simp [names]))]
  | negate argument position argumentSame => rw [relabel, relabel, argumentSame same]
  | binary operator left right position leftSame rightSame =>
      obtain ⟨inLeft, inRight⟩ := List.forall_mem_append.mp same
      rw [relabel, relabel, leftSame inLeft, rightSame inRight]
  | assign target value valueSame =>
      obtain ⟨inTarget, inValue⟩ := List.forall_mem_cons.mp same
      rw [relabel, relabel, target.relabel_congr inTarget, valueSame inValue]

mutual

/-- A statement is relabelled by what happens to the names in it. -/
theorem Statement.relabel_congr
    {s : Statement}
    (same : ∀ name ∈ s.names, first name = second name) :
    s.relabel ⟨first, place⟩ = s.relabel ⟨second, place⟩ := by
  match s with
  | .print argument position =>
      rw [Statement.relabel, Statement.relabel, argument.relabel_congr same]
  | .declare id init =>
      rw [Statement.names] at same
      obtain ⟨inName, inInit⟩ := List.forall_mem_cons.mp same
      rw [Statement.relabel, Statement.relabel, id.relabel_congr inName]
      cases init with
      | none => rfl
      | some value => rw [Option.map_some, Option.map_some, value.relabel_congr inInit]
  | .conditional test body elseIfs alternate =>
      simp only [Statement.names, List.forall_mem_append] at same
      obtain ⟨inTest, inBody, inClauses, inAlternate⟩ := same
      rw [Statement.relabel, Statement.relabel, test.relabel_congr inTest,
        Program.relabel_congr inBody, relabelClauses_congr inClauses,
        Program.relabel_congr inAlternate]
  | .count counter start stop body =>
      simp only [Statement.names, List.forall_mem_append, List.forall_mem_cons] at same
      obtain ⟨inCounter, inStart, inStop, inBody⟩ := same
      rw [Statement.relabel, Statement.relabel, counter.relabel_congr inCounter,
        start.relabel_congr inStart, stop.relabel_congr inStop, Program.relabel_congr inBody]
  | .loop test body =>
      simp only [Statement.names, List.forall_mem_append] at same
      rw [Statement.relabel, Statement.relabel, test.relabel_congr same.1,
        Program.relabel_congr same.2]
  | .evaluate expression =>
      rw [Statement.relabel, Statement.relabel, expression.relabel_congr same]

theorem relabelClauses_congr
    {clauses : List Clause}
    (same : ∀ name ∈ clauseNames clauses, first name = second name) :
    relabelClauses ⟨first, place⟩ clauses = relabelClauses ⟨second, place⟩ clauses := by
  match clauses with
  | [] => rfl
  | .mk test body :: rest =>
      simp only [clauseNames, List.forall_mem_append] at same
      obtain ⟨inTest, inBody, inRest⟩ := same
      rw [relabelClauses, relabelClauses, test.relabel_congr inTest, Program.relabel_congr inBody,
        relabelClauses_congr inRest]

/-- Relabellings that agree on the names of a program do the same to it. -/
theorem Program.relabel_congr
    {program : List Statement}
    (same : ∀ name ∈ Program.names program, first name = second name) :
    Program.relabel ⟨first, place⟩ program = Program.relabel ⟨second, place⟩ program := by
  match program with
  | [] => rfl
  | statement :: rest =>
      simp only [Program.names, List.forall_mem_append] at same
      rw [Program.relabel, Program.relabel, statement.relabel_congr same.1,
        Program.relabel_congr same.2]

end

end Congruence

end Pictogram
