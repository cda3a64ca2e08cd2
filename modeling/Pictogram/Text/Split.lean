/-!
# Texts cut at a separator
-/

namespace Pictogram
namespace Text

/-- One more character in front of the pieces of a text. -/
def splitStep
    (separator character : Char)
    (pieces : List (List Char)) : List (List Char) :=
  if character = separator then [] :: pieces
  else match pieces with
    | [] => [[character]]
    | piece :: rest => (character :: piece) :: rest

/-- The pieces of a text between the separators, one more than there are
separators. -/
def split (separator : Char) (text : List Char) : List (List Char) :=
  text.foldr (splitStep separator) [[]]

@[simp] theorem split_nil (separator : Char) : split separator [] = [[]] := rfl

@[simp] theorem split_cons (separator character : Char) (text : List Char) :
    split separator (character :: text) =
      splitStep separator character (split separator text) := rfl

/-- There is a piece always. -/
theorem split_ne_nil (separator : Char) (text : List Char) : split separator text ≠ [] := by
  cases text with
  | nil => simp
  | cons character text =>
    simp only [split_cons, splitStep]
    split
    · simp
    · split <;> simp

/-- Pieces put together with separators. -/
def join (separator : Char) : List (List Char) → List Char
  | [] => []
  | [piece] => piece
  | piece :: next :: rest => piece ++ separator :: join separator (next :: rest)

end Text
end Pictogram
