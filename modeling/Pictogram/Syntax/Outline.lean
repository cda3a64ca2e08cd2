import Pictogram.Number.Layout
import Pictogram.Syntax
import Pictogram.Text.Quoted

/-!
# Outlines of syntax trees

An outline shows a tree with one part to a line and the parts of a part four
columns further in.
-/

namespace Pictogram

/-- A tree of named parts. -/
inductive Outline where
  /-- A text of one line. -/
  | leaf (text : String)
  /-- A part within another one. -/
  | wrapped (name : String) (part : Outline)
  /-- A part with named fields. -/
  | record (name : String) (fields : List (String × Outline))
  /-- A list of parts. -/
  | list (parts : List Outline)

namespace Outline

/-- The margin of what is further in. -/
def deeper (margin : String) : String := margin ++ "    "

mutual

/-- The outline after what stands on its first line. -/
def write (margin : String) : Outline → String
  | .leaf text => text
  | .wrapped name part =>
    name ++ "(\n" ++ deeper margin ++ write (deeper margin) part ++ ",\n" ++ margin ++ ")"
  | .record name fields =>
    name ++ " \x7b\n" ++ writeFields (deeper margin) fields ++ margin ++ "\x7d"
  | .list parts =>
    if parts.isEmpty then "[]"
    else "[\n" ++ writeParts (deeper margin) parts ++ margin ++ "]"

/-- The lines of named fields. -/
def writeFields (margin : String) : List (String × Outline) → String
  | [] => ""
  | (name, part) :: rest =>
    margin ++ name ++ ": " ++ write margin part ++ ",\n" ++ writeFields margin rest

/-- The lines of the parts of a list. -/
def writeParts (margin : String) : List Outline → String
  | [] => ""
  | part :: rest => margin ++ write margin part ++ ",\n" ++ writeParts margin rest

end

/-- The outline of a position. -/
def position (place : Position) : Outline :=
  .record "Position" [("line", .leaf (toString place.line)), ("column", .leaf (toString place.column))]

/-- The outline of a name. -/
def identifier (id : Identifier) : Outline :=
  .record "Identifier" [("name", .leaf (Text.quoted id.name)), ("position", position id.position)]

/-- The outline of a value written out. -/
def literal : Literal → Outline
  | .number value => .wrapped "Number" (.leaf (Number.outlined.write value))
  | .string text => .wrapped "String" (.leaf (Text.quoted text))
  | .boolean value => .wrapped "Boolean" (.leaf (toString value))
  | .null => .leaf "Null"

/-- The outline of an expression. -/
def expression : Expression → Outline
  | .literal value place =>
    .wrapped "Literal" (.record "LiteralExpression"
      [("value", literal value), ("position", position place)])
  | .name id => .wrapped "Identifier" (identifier id)
  | .negate argument place =>
    .wrapped "Unary" (.record "UnaryExpression"
      [("operator", .leaf "Minus"), ("argument", expression argument),
        ("position", position place)])
  | .binary operator left right place =>
    .wrapped "Binary" (.record "BinaryExpression"
      [("operator", .leaf operator.label), ("left", expression left),
        ("right", expression right), ("position", position place)])
  | .assign target value =>
    .wrapped "Assignment" (.record "AssignmentExpression"
      [("target", identifier target), ("value", expression value)])

/-- The outline of a conditional. -/
def conditional (test : Expression) (body elseIfs alternate : List Outline) : Outline :=
  .record "IfStatement"
    [("test", expression test), ("consequent", .list body), ("else_ifs", .list elseIfs),
      ("alternate", .list alternate)]

mutual

/-- The outline of a statement. -/
def statement : Statement → Outline
  | .print argument place =>
    .wrapped "Print" (.record "PrintStatement"
      [("argument", expression argument), ("position", position place)])
  | .declare id init =>
    let first := match init with
      | none => Outline.leaf "None"
      | some value => .wrapped "Some" (expression value)
    .wrapped "Declaration" (.record "VariableDeclaration"
      [("id", identifier id), ("init", first)])
  | .conditional test body elseIfs alternate =>
    .wrapped "If" (conditional test (statements body) (clauses elseIfs) (statements alternate))
  | .count counter start stop body =>
    .wrapped "For" (.record "ForStatement"
      [("variable", identifier counter), ("start", expression start), ("end", expression stop),
        ("body", .list (statements body))])
  | .loop test body =>
    .wrapped "While" (.record "WhileStatement"
      [("test", expression test), ("body", .list (statements body))])
  | .evaluate value =>
    .wrapped "Expression" (.record "ExpressionStatement" [("expression", expression value)])

/-- The outlines of statements. -/
def statements : List Statement → List Outline
  | [] => []
  | first :: rest => statement first :: statements rest

/-- The outlines of the further tests of a conditional. -/
def clauses : List Clause → List Outline
  | [] => []
  | .mk test body :: rest => conditional test (statements body) [] [] :: clauses rest

end

end Outline

/-- The outline of a statement, on lines of its own. -/
def Statement.outline (statement : Statement) : String :=
  (Outline.statement statement).write ""

end Pictogram
