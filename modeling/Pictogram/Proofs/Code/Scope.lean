import Pictogram.Proofs.Code.Acceptance
import Pictogram.Proofs.Code.Main

/-!
# The scope of code that has been generated

What has code is in scope and its types fit, and the names after it have the slots
that the text alone gives them.
-/

namespace Pictogram
namespace Compile

open Pictogram.Class (Pool)

variable {pool : Pool}

/-- The type of the code of an operator can be told from the types of its operands. -/
theorem OperationTree.operationType?_eq
    {operator : BinaryOperator}
    {left right type : StaticType}
    {tree : Tree}
    (code : OperationTree operator left right type tree) :
    operationType? operator left right = some type := by
  cases code with
  | integer operates =>
      cases operator with
      | add | subtract | multiply | divide | modulo => rfl
      | _ => cases operates
  | ordering operates =>
      cases operator with
      | lessThan | lessOrEqual | greaterThan | greaterOrEqual => rfl
      | _ => cases operates
  | boolean operates =>
      cases operator with
      | and | or => rfl
      | _ => cases operates
  | equality notText => exact if_pos ⟨rfl, notText⟩

/-- The type of the code of an expression can be told from the expression and the scope. -/
theorem ExpressionTree.expressionType?_eq
    {slots : Slots}
    {e : Expression}
    {type : StaticType}
    {tree : Tree}
    (code : ExpressionTree pool slots e type tree) :
    expressionType? slots e = some type := by
  induction code with
  | number integral _ => simp [expressionType?, literalType?, integral]
  | string _ | boolean _ => rfl
  | name resolved => simp [expressionType?, resolved]
  | negate _ argument => simp [expressionType?, argument]
  | binary _ _ operation left right =>
      simp [expressionType?, left, right, operation.operationType?_eq]
  | assign resolved _ value => simp [expressionType?, resolved, value]

/-- An expression whose code is not a text is a test. -/
theorem ExpressionTree.isTest_eq
    {slots : Slots}
    {test : Expression}
    {type : StaticType}
    {tree : Tree}
    (code : ExpressionTree pool slots test type tree)
    (notText : type ≠ .string) :
    isTest slots test = true := by
  simp [isTest, code.expressionType?_eq, notText]

/-- The scope after a part of a program, as the text alone gives it. -/
def Part.scopeAfter? (slots : Slots) : Part → Option Slots
  | .one statement => Compile.scopeAfter? slots statement
  | .all statements => scopeAfterAll? slots statements

/-- The scope after what is left of a conditional is that after its clauses and then its alternate.
-/
theorem scopeAfterAll?_remaining
    (slots : Slots)
    (elseIfs : List Clause)
    (alternate : List Statement) :
    scopeAfterAll? slots (remaining elseIfs alternate) =
      (scopeAfterClauses? slots elseIfs).bind (scopeAfterAll? · alternate) := by
  cases elseIfs with
  | nil => simp [remaining, scopeAfterClauses?]
  | cons clause rest =>
      cases clause
      simp [remaining, scopeAfterAll?, scopeAfter?, scopeAfterClauses?, Option.bind_assoc]

/-- The scope after a conditional is that after its body and then what is left of it. -/
theorem scopeAfter?_conditional
    {slots : Slots}
    {test : Expression}
    (isTest : isTest slots test = true)
    (body : List Statement)
    (elseIfs : List Clause)
    (alternate : List Statement) :
    scopeAfter? slots (.conditional test body elseIfs alternate) =
      (scopeAfterAll? slots body).bind (scopeAfterAll? · (remaining elseIfs alternate)) := by
  simp [scopeAfter?, isTest, scopeAfterAll?_remaining]

/-- The scope after the code of a part can be told from the part and the scope before. -/
theorem PartTree.scopeAfter?_eq
    {before after : Slots}
    {part : Part}
    {tree : Tree}
    (code : PartTree pool before part after tree) :
    part.scopeAfter? before = some after := by
  induction code with
  | print _ argument _ =>
      simp [Part.scopeAfter?, scopeAfter?, argument.expressionType?_eq]
  | declare value declared =>
      simp [Part.scopeAfter?, scopeAfter?, initialType?, value.expressionType?_eq, scopeOf,
        declared]
  | declareZero declared =>
      simp [Part.scopeAfter?, scopeAfter?, initialType?, scopeOf, declared]
  | onlyIf test notText _ noRest body =>
      simp only [Part.scopeAfter?] at body
      simp [Part.scopeAfter?, scopeAfter?_conditional (test.isTest_eq notText), body, noRest,
        scopeAfterAll?]
  | ifElse test notText _ _ _ body rest =>
      simp only [Part.scopeAfter?] at body rest
      simp [Part.scopeAfter?, scopeAfter?_conditional (test.isTest_eq notText), body, rest]
  | count start stop hidden declared _ body =>
      simp only [Part.scopeAfter?] at body
      simp [Part.scopeAfter?, scopeAfter?, start.expressionType?_eq, stop.expressionType?_eq,
        scopeOf, hidden, declared, body]
  | loop test notText _ body =>
      simpa [Part.scopeAfter?, scopeAfter?, test.isTest_eq notText] using body
  | assign resolved value =>
      simp [Part.scopeAfter?, scopeAfter?, expressionType?, resolved, value.expressionType?_eq]
  | drop value => simp [Part.scopeAfter?, scopeAfter?, value.expressionType?_eq]
  | nil => rfl
  | cons _ _ first rest =>
      simp only [Part.scopeAfter?] at first rest
      simp [Part.scopeAfter?, scopeAfterAll?, first, rest]

end Compile
end Pictogram
