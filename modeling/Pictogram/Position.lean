import Pictogram.Text.Cluster

/-!
# Positions in a source text

Lines and columns count from one, columns in grapheme clusters.
-/

namespace Pictogram

/-- A place in a source text. -/
structure Position where
  /-- The line, counted from one. -/
  line : Nat
  /-- The column, counted from one in clusters. -/
  column : Nat
  deriving DecidableEq, Repr, Inhabited

namespace Position

/-- The first place of a text. -/
def origin : Position := ⟨1, 1⟩

/-- The place after a cluster that stands here. -/
def after (position : Position) (cluster : Cluster) : Position :=
  if cluster.isNewline then ⟨position.line + 1, 1⟩
  else ⟨position.line, position.column + 1⟩

/-- The place after a run of clusters that starts here. -/
def afterAll (position : Position) (run : List Cluster) : Position :=
  run.foldl after position

/-- The position in words, as messages give it. -/
def describe (position : Position) : String :=
  s!"line {position.line}, column {position.column}"

@[simp] theorem afterAll_nil (position : Position) : position.afterAll [] = position := rfl

@[simp] theorem afterAll_cons
    (position : Position)
    (cluster : Cluster)
    (run : List Cluster) :
    position.afterAll (cluster :: run) = (position.after cluster).afterAll run := rfl

theorem afterAll_append
    (position : Position)
    (first second : List Cluster) :
    position.afterAll (first ++ second) = (position.afterAll first).afterAll second := by
  simp [afterAll]

end Position

end Pictogram
