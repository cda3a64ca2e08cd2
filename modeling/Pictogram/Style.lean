/-!
# Colours and columns

Text for a terminal: colours are switched on before a text and off after it,
and a column is filled up with spaces.
-/

namespace Pictogram

/-- A colour of text. -/
inductive Colour where
  | red
  | green
  | yellow
  | magenta
  | cyan
  | white
  | brightYellow
  | brightBlue
  | brightCyan
  | brightGreen
  deriving DecidableEq, Repr

/-- The number that selects a colour. -/
def Colour.code : Colour → Nat
  | .red => 31
  | .green => 32
  | .yellow => 33
  | .magenta => 35
  | .cyan => 36
  | .white => 37
  | .brightGreen => 92
  | .brightYellow => 93
  | .brightBlue => 94
  | .brightCyan => 96

namespace Style

/-- The sequence that selects a rendition. -/
def select (code : Nat) : String := s!"\x1b[{code}m"

/-- A text in a colour. -/
def paint (colour : Colour) (text : String) : String :=
  select colour.code ++ text ++ select 39

/-- A bold text. -/
def bold (text : String) : String := select 1 ++ text ++ select 0

/-- A dimmed text. -/
def dimmed (text : String) : String := select 2 ++ text ++ select 0

/-- A bold text in a colour. -/
def boldPaint (colour : Colour) (text : String) : String := bold (paint colour text)

/-- A text at the left of a column. -/
def left (width : Nat) (text : String) : String :=
  text ++ String.ofList (List.replicate (width - text.length) ' ')

/-- A text at the right of a column. -/
def right (width : Nat) (text : String) : String :=
  String.ofList (List.replicate (width - text.length) ' ') ++ text

end Style

end Pictogram
