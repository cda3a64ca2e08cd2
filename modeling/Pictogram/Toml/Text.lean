import Pictogram.Text.Hexadecimal

/-!
# Texts and keys of a TOML document

Every reader takes characters off the front of a text.  It gives what it read
and what follows, or nothing if the text does not begin with what it looks for.
-/

namespace Pictogram
namespace Toml

/-- A reader. -/
abbrev Reader (α : Type) := List Char → Option (α × List Char)

/-- The text after blanks within a line. -/
def skipBlanks (text : List Char) : List Char :=
  text.dropWhile fun character => character = ' ' || character = '\t'

/-- The text after a line end. -/
def lineEnd? : List Char → Option (List Char)
  | '\n' :: rest => some rest
  | '\r' :: '\n' :: rest => some rest
  | _ => none

/-- Whether a character may stand in a comment. -/
def isPlain (character : Char) : Bool :=
  character = '\t' || (' ' ≤ character && character ≠ '\x7f')

/-- The text after a comment, if there is one. -/
def skipComment : List Char → List Char
  | '#' :: rest => rest.dropWhile isPlain
  | text => text

/-- The text after the rest of a line, which may only hold a comment. -/
def endLine? (text : List Char) : Option (List Char) :=
  match skipComment (skipBlanks text) with
  | [] => some []
  | rest => lineEnd? rest

/-- The text after blanks, line ends and comments.  `fuel` is at least the
length of the text. -/
def skipLines : (fuel : Nat) → List Char → List Char
  | 0, text => text
  | fuel + 1, text =>
    let rest := skipComment (skipBlanks text)
    match lineEnd? rest with
    | some rest => skipLines fuel rest
    | none => rest

/-- A character given by its code in hexadecimal digits. -/
def codePoint (width : Nat) : Reader Char := fun text => do
  let digits := text.take width
  if digits.length ≠ width then none
  else
    let code ← Text.ofHexDigits? digits
    if code.isValidChar then some (Char.ofNat code, text.drop width) else none

/-- A character after a backslash. -/
def escape : Reader Char
  | 'b' :: rest => some ('\x08', rest)
  | 't' :: rest => some ('\t', rest)
  | 'n' :: rest => some ('\n', rest)
  | 'f' :: rest => some ('\x0c', rest)
  | 'r' :: rest => some ('\r', rest)
  | '"' :: rest => some ('"', rest)
  | '\\' :: rest => some ('\\', rest)
  | 'u' :: rest => codePoint 4 rest
  | 'U' :: rest => codePoint 8 rest
  | _ => none

/-- The text of a basic string after its opening quotation mark; `done` is what
has been read of it, the last character first. -/
def basic : (fuel : Nat) → (done : List Char) → Reader String
  | 0, _, _ => none
  | _ + 1, _, [] => none
  | fuel + 1, done, character :: rest =>
    if character = '"' then some (String.ofList done.reverse, rest)
    else if character = '\\' then do
      let (escaped, rest) ← escape rest
      basic fuel (escaped :: done) rest
    else if isPlain character then basic fuel (character :: done) rest
    else none

/-- The text of a literal string after its opening apostrophe. -/
def literal : Reader String := fun text =>
  let isInside (character : Char) : Bool := isPlain character && character ≠ '\''
  match text.dropWhile isInside with
  | '\'' :: rest => some (String.ofList (text.takeWhile isInside), rest)
  | _ => none

/-- The text after blanks and line ends. -/
def skipBlankLines : List Char → List Char
  | ' ' :: rest => skipBlankLines rest
  | '\t' :: rest => skipBlankLines rest
  | '\n' :: rest => skipBlankLines rest
  | '\r' :: '\n' :: rest => skipBlankLines rest
  | text => text

/-- The text after a backslash at the end of a line: the line end, and what is
blank after it. -/
def skipFolded? (text : List Char) : Option (List Char) :=
  (lineEnd? (skipBlanks text)).map skipBlankLines

/-- The text of a string over several lines, after its opening marks.  Such a
string ends with three marks, in front of which one or two may belong to it. -/
def multiline (mark : Char) (escapes : Bool) : (fuel : Nat) → (done : List Char) → Reader String
  | 0, _, _ => none
  | fuel + 1, done, text =>
    let marks := (text.takeWhile (· = mark)).length
    if 3 ≤ marks then
      if 6 ≤ marks then none
      else
        let inside := List.replicate (marks - 3) mark
        some (String.ofList (done.reverse ++ inside), text.drop marks)
    else match text with
      | [] => none
      | '\n' :: rest => multiline mark escapes fuel ('\n' :: done) rest
      | '\r' :: '\n' :: rest => multiline mark escapes fuel ('\n' :: done) rest
      | character :: rest =>
        if escapes && character = '\\' then
          match skipFolded? rest with
          | some rest => multiline mark escapes fuel done rest
          | none => do
            let (escaped, rest) ← escape rest
            multiline mark escapes fuel (escaped :: done) rest
        else if isPlain character then multiline mark escapes fuel (character :: done) rest
        else none

/-- A text after a line end right after the opening marks. -/
def skipFirstLineEnd (text : List Char) : List Char :=
  (lineEnd? text).getD text

/-- A string of any kind. -/
def string : Reader String := fun text =>
  match text with
  | '"' :: '"' :: '"' :: rest => multiline '"' true (rest.length + 1) [] (skipFirstLineEnd rest)
  | '\'' :: '\'' :: '\'' :: rest => multiline '\'' false (rest.length + 1) [] (skipFirstLineEnd rest)
  | '"' :: rest => basic (rest.length + 1) [] rest
  | '\'' :: rest => literal rest
  | _ => none

/-- Whether a character may stand in a key without quotation marks. -/
def isBare (character : Char) : Bool :=
  character.isAlphanum || character = '_' || character = '-'

/-- One name of a key. -/
def simpleKey : Reader String := fun text =>
  match text with
  | '"' :: rest => basic (rest.length + 1) [] rest
  | '\'' :: rest => literal rest
  | _ =>
    let name := text.takeWhile isBare
    if name.isEmpty then none else some (String.ofList name, text.dropWhile isBare)

/-- A key: names with points between them.  `done` holds the names read, the
last one first. -/
def keyFrom : (fuel : Nat) → (done : List String) → Reader (List String)
  | 0, _, _ => none
  | fuel + 1, done, text => do
    let (name, rest) ← simpleKey (skipBlanks text)
    match skipBlanks rest with
    | '.' :: rest => keyFrom fuel (name :: done) rest
    | rest => return (name :: done, rest)

/-- A key: the names on the way, and the last one. -/
def key : Reader (List String × String) := fun text => do
  match ← keyFrom (text.length + 1) [] text with
  | ([], _) => none
  | (last :: before, rest) => return ((before.reverse, last), rest)

end Toml
end Pictogram
