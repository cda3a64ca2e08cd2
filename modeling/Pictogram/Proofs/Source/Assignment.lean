import Pictogram.Proofs.Code.Statement

/-!
# Variables that are read before they are set

A variable is unset until a declaration or an assignment sets it.  From the text
alone it is said whether a part of a program, begun while a variable is unset, may
read it so, and whether it may leave it so.  Any clause of a conditional may be
the one that is run, and the body of a loop may be run any number of times or not
at all.  The counter of a loop is set before the body; after the loop its name is
free again, and what it stands for then is a new variable.
-/

namespace Pictogram

namespace Expression

/-- Whether a variable that is unset stays so. -/
def leavesUnset (name : String) : Expression → Bool
  | .literal _ _ | .name _ => true
  | .negate argument _ => argument.leavesUnset name
  | .binary _ left right _ => left.leavesUnset name && right.leavesUnset name
  | .assign target value => value.leavesUnset name && target.name != name

/-- Whether a variable that is unset is read. -/
def readsUnset (name : String) : Expression → Bool
  | .literal _ _ => false
  | .name id => id.name == name
  | .negate argument _ => argument.readsUnset name
  | .binary _ left right _ =>
    left.readsUnset name ||
      (left.leavesUnset name && right.readsUnset name)
  | .assign _ value => value.readsUnset name

end Expression

mutual

/-- Whether a variable that is unset may stay so. -/
def Statement.leavesUnset (name : String) : Statement → Bool
  | .print argument _ => argument.leavesUnset name
  | .declare id none => id.name != name
  | .declare id (some value) => value.leavesUnset name && id.name != name
  | .conditional test body elseIfs alternate =>
    test.leavesUnset name &&
      (allLeaveUnset name body ||
        clausesLeaveUnset name (allLeaveUnset name alternate) elseIfs)
  | .count counter start stop _ =>
    (start.leavesUnset name && stop.leavesUnset name) ||
      counter.name == name
  | .loop test _ => test.leavesUnset name
  | .evaluate expression => expression.leavesUnset name

/-- Whether further clauses may leave a variable unset, given whether the alternate may. -/
def clausesLeaveUnset (name : String) (alternate : Bool) : List Clause → Bool
  | [] => alternate
  | .mk test body :: rest =>
    test.leavesUnset name &&
      (allLeaveUnset name body || clausesLeaveUnset name alternate rest)

/-- Whether statements may leave a variable unset. -/
def allLeaveUnset (name : String) : List Statement → Bool
  | [] => true
  | first :: rest => first.leavesUnset name && allLeaveUnset name rest

end

mutual

/-- Whether a variable that is unset may be read. -/
def Statement.readsUnset (name : String) : Statement → Bool
  | .print argument _ => argument.readsUnset name
  | .declare _ none => false
  | .declare _ (some value) => value.readsUnset name
  | .conditional test body elseIfs alternate =>
    test.readsUnset name ||
      (test.leavesUnset name &&
        (allReadUnset name body ||
          clausesReadUnset name (allReadUnset name alternate) elseIfs))
  | .count counter start stop body =>
    start.readsUnset name ||
      (start.leavesUnset name &&
        (stop.readsUnset name ||
          (stop.leavesUnset name && counter.name != name &&
            allReadUnset name body)))
  | .loop test body =>
    test.readsUnset name ||
      (test.leavesUnset name && allReadUnset name body)
  | .evaluate expression => expression.readsUnset name

/-- Whether further clauses may read a variable unset, given whether the alternate may. -/
def clausesReadUnset (name : String) (alternate : Bool) : List Clause → Bool
  | [] => alternate
  | .mk test body :: rest =>
    test.readsUnset name ||
      (test.leavesUnset name &&
        (allReadUnset name body || clausesReadUnset name alternate rest))

/-- Whether statements may read a variable unset. -/
def allReadUnset (name : String) : List Statement → Bool
  | [] => false
  | first :: rest =>
    first.readsUnset name ||
      (first.leavesUnset name && allReadUnset name rest)

end

namespace Compile

/-- Whether a variable that is unset before a part may be so after it. -/
def Part.leavesUnset (name : String) : Part → Bool
  | .one statement => statement.leavesUnset name
  | .all statements => allLeaveUnset name statements

/-- Whether a variable that is unset before a part may be read in it. -/
def Part.readsUnset (name : String) : Part → Bool
  | .one statement => statement.readsUnset name
  | .all statements => allReadUnset name statements

section Part

variable (name : String)

@[simp] theorem Part.leavesUnset_one (statement : Statement) :
    (Part.one statement).leavesUnset name = statement.leavesUnset name := rfl

@[simp] theorem Part.leavesUnset_all (statements : List Statement) :
    (Part.all statements).leavesUnset name = allLeaveUnset name statements := rfl

@[simp] theorem Part.readsUnset_one (statement : Statement) :
    (Part.one statement).readsUnset name = statement.readsUnset name := rfl

@[simp] theorem Part.readsUnset_all (statements : List Statement) :
    (Part.all statements).readsUnset name = allReadUnset name statements := rfl

end Part

/-- What is left of a conditional leaves a variable unset as its clauses and its alternate do. -/
theorem allLeaveUnset_remaining
    (name : String)
    (elseIfs : List Clause)
    (alternate : List Statement) :
    allLeaveUnset name (remaining elseIfs alternate) =
      clausesLeaveUnset name (allLeaveUnset name alternate) elseIfs := by
  cases elseIfs with
  | nil => simp [remaining, clausesLeaveUnset]
  | cons clause rest =>
      cases clause
      simp [remaining, allLeaveUnset, Statement.leavesUnset, clausesLeaveUnset]

/-- What is left of a conditional reads a variable unset as its clauses and its alternate do. -/
theorem allReadUnset_remaining
    (name : String)
    (elseIfs : List Clause)
    (alternate : List Statement) :
    allReadUnset name (remaining elseIfs alternate) =
      clausesReadUnset name (allReadUnset name alternate) elseIfs := by
  cases elseIfs with
  | nil => simp [remaining, clausesReadUnset]
  | cons clause rest =>
      cases clause
      simp [remaining, allReadUnset, Statement.readsUnset, clausesReadUnset]

end Compile
end Pictogram
