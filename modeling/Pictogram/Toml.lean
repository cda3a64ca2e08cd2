import Pictogram.Toml.Number

/-!
# Reading a TOML document

A document is read line by line: a line gives a value to a key, or it is the
header of the table that the following lines belong to.
-/

namespace Pictogram
namespace Toml

/-- How deep arrays and tables within a line may be nested. -/
def depthLimit : Nat := 80

/-- The table that pairs of keys and values make. -/
def ofPairs (pairs : List ((List String × String) × Value)) : Option Value := do
  let entries ← pairs.foldlM
    (fun entries ((path, name), value) => assign path.isEmpty name value path entries)
    ([] : Entries)
  return (Node.table .header entries).freeze

mutual

/-- A value within so many levels of nesting. -/
def value (depth : Nat) : Reader Value
  | 't' :: 'r' :: 'u' :: 'e' :: rest => some (.boolean true, rest)
  | 'f' :: 'a' :: 'l' :: 's' :: 'e' :: rest => some (.boolean false, rest)
  | '"' :: rest => (string ('"' :: rest)).map fun (text, rest) => (.string text, rest)
  | '\'' :: rest => (string ('\'' :: rest)).map fun (text, rest) => (.string text, rest)
  | '[' :: rest =>
    match depth with
    | depth + 2 => items (depth + 1) (rest.length + 1) [] rest
    | _ => none
  | '{' :: rest =>
    match depth with
    | depth + 2 =>
      match skipBlanks rest with
      | '}' :: rest => some (.table [], rest)
      | rest => pairs (depth + 1) (rest.length + 1) [] rest
    | _ => none
  | text => number text
termination_by (depth, 0)

/-- The items of an array up to its end, after those in `done`. -/
def items (depth fuel : Nat) (done : List Value) (text : List Char) :
    Option (Value × List Char) :=
  match fuel with
  | 0 => none
  | fuel + 1 =>
    match skipLines (text.length + 1) text with
    | ']' :: rest => some (.array done.reverse, rest)
    | text => do
      let (item, rest) ← value depth text
      match skipLines (rest.length + 1) rest with
      | ',' :: rest => items depth fuel (item :: done) rest
      | ']' :: rest => return (.array (item :: done).reverse, rest)
      | _ => none
termination_by (depth, fuel)

/-- The pairs of a table within a line, after those in `done`. -/
def pairs (depth fuel : Nat) (done : List ((List String × String) × Value)) (text : List Char) :
    Option (Value × List Char) :=
  match fuel with
  | 0 => none
  | fuel + 1 => do
    let (name, rest) ← key text
    let rest ← after '=' rest
    let (found, rest) ← value depth (skipBlanks rest)
    match skipBlanks rest with
    | ',' :: rest => pairs depth fuel ((name, found) :: done) rest
    | '}' :: rest => return (← ofPairs ((name, found) :: done).reverse, rest)
    | _ => none
termination_by (depth, fuel)

end

/-- A document being read. -/
structure Document where
  /-- The entries so far. -/
  entries : Entries
  /-- The path of the table that lines belong to. -/
  current : List String

namespace Document

/-- The document with a line that gives a value to a key. -/
def addPair (document : Document) (text : List Char) : Option (Document × List Char) := do
  let ((path, name), rest) ← key text
  let rest ← after '=' rest
  let (found, rest) ← value depthLimit (skipBlanks rest)
  let rest ← endLine? rest
  let entries ← change (assign path.isEmpty name found path) document.current document.entries
  return ({ document with entries }, rest)

/-- The document with the header of a table, after its opening bracket. -/
def addTable (document : Document) (text : List Char) : Option (Document × List Char) := do
  let ((path, name), rest) ← key text
  let rest ← endLine? (← after ']' rest)
  return (⟨← change (openTable name) path document.entries, path ++ [name]⟩, rest)

/-- The document with a repeated header, after its opening brackets. -/
def addFurther (document : Document) (text : List Char) : Option (Document × List Char) := do
  let ((path, name), rest) ← key text
  let rest ← endLine? (← after ']' (← after ']' rest))
  return (⟨← change (openFurther name) path document.entries, path ++ [name]⟩, rest)

/-- The document with all lines of a text. -/
def addLines (document : Document) : (fuel : Nat) → List Char → Option Document
  | 0, _ => none
  | fuel + 1, text =>
    match skipLines (text.length + 1) text with
    | [] => some document
    | '[' :: '[' :: rest => do
      let (document, rest) ← document.addFurther rest
      document.addLines fuel rest
    | '[' :: rest => do
      let (document, rest) ← document.addTable rest
      document.addLines fuel rest
    | text => do
      let (document, rest) ← document.addPair text
      document.addLines fuel rest

end Document

/-- The entries of a document; nothing if the text is no document. -/
def read (text : String) : Option (List (String × Value)) := do
  let characters := match text.toList with
    | '\uFEFF' :: rest => rest
    | characters => characters
  let document ← Document.addLines ⟨[], []⟩ (characters.length + 1) characters
  return freezeAll document.entries

end Toml
end Pictogram
