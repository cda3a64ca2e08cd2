import Pictogram.Shell.Balance
import Pictogram.Shell.Highlight
import Pictogram.Shell.Keyword

/-!
# Typing a line

Keys are typed at the end of a line.  The tab key completes the last word, and
pressed again it goes through the offers and back to what was typed.
-/

namespace Pictogram
namespace Shell

/-- A tour through the offers of a completion. -/
structure Tour where
  /-- The line as it was typed. -/
  typed : List Char
  /-- The offers for it. -/
  completion : Completion
  /-- The number of the offer shown; the number of offers stands for the line as
  it was typed. -/
  stop : Nat

/-- The line at a stop of the tour. -/
def Tour.line (tour : Tour) : List Char :=
  match tour.completion.offers[tour.stop]? with
  | some offer => tour.completion.kept ++ offer.text.toList
  | none => tour.typed

/-- The tour at its next stop. -/
def Tour.next (tour : Tour) : Tour :=
  { tour with stop := (tour.stop + 1) % (tour.completion.offers.length + 1) }

/-- A line being typed. -/
structure Editor where
  /-- The line so far. -/
  text : List Char
  /-- The tour that the last key was part of. -/
  tour : Option Tour

/-- What a key led to. -/
inductive Pressed where
  /-- The line is still being typed. -/
  | editing
  /-- The line is an input. -/
  | submitted
  /-- The line was given up. -/
  | abandoned
  /-- The input is at its end. -/
  | ended
  deriving DecidableEq, Repr

namespace Editor

/-- An empty line. -/
def empty : Editor := ⟨[], none⟩

/-- The line after the tab key. -/
def tab (editor : Editor) : Editor :=
  match editor.tour with
  | some tour => ⟨tour.next.line, some tour.next⟩
  | none =>
    let completion := complete editor.text editor.text
    if completion.offers.isEmpty then editor
    else
      let tour : Tour := ⟨editor.text, completion, 0⟩
      ⟨tour.line, some tour⟩

/-- The line after a key, and what the key led to. -/
def press (editor : Editor) (key : Char) : Editor × Pressed :=
  match key with
  | '\t' => (editor.tab, .editing)
  | '\r' =>
    if isBalanced (String.ofList editor.text) then (⟨editor.text, none⟩, .submitted)
    else (⟨editor.text ++ ['\n'], none⟩, .editing)
  | '\x03' => (⟨editor.text, none⟩, .abandoned)
  | '\x04' => (⟨editor.text, none⟩, if editor.text.isEmpty then .ended else .editing)
  | key => (⟨editor.text ++ [key], none⟩, .editing)

/-- The line after keys, up to the first that ends it, and what that led to. -/
def type (editor : Editor) : List Char → Editor × Pressed
  | [] => (editor, .editing)
  | key :: rest =>
    match editor.press key with
    | (editor, .editing) => editor.type rest
    | result => result

/-- The line as it is drawn. -/
def shown (editor : Editor) : String := highlight (String.ofList editor.text)

end Editor
end Shell
end Pictogram
