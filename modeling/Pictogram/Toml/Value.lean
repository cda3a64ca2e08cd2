/-!
# Values of a TOML document

A document is a table of named values.  While it is being read, a table also
knows how it came about, because that decides what may still be added to it.
-/

namespace Pictogram
namespace Toml

/-- A value. -/
inductive Value where
  | string (text : String)
  | integer (value : Int)
  | float (value : Float)
  | boolean (value : Bool)
  /-- A date, a time, or both. -/
  | moment (text : String)
  | array (items : List Value)
  | table (entries : List (String × Value))

/-- How a table came about. -/
inductive Origin where
  /-- It has a header of its own. -/
  | header
  /-- The header of a table inside it names it. -/
  | enclosing
  /-- A dotted key names it. -/
  | dotted
  deriving DecidableEq, Repr

/-- What a name stands for in a document being read. -/
inductive Node where
  /-- A value, to which nothing can be added. -/
  | value (value : Value)
  /-- A table. -/
  | table (origin : Origin) (entries : List (String × Node))
  /-- Tables under the same header, the last one first. -/
  | tables (last : List (String × Node)) (before : List (List (String × Node)))

/-- Named nodes, in the order in which they came up. -/
abbrev Entries := List (String × Node)

/-- The entries with another node in the place of a named one. -/
def Entries.replace (entries : Entries) (name : String) (node : Node) : Entries :=
  entries.map fun (other, old) => if other = name then (other, node) else (other, old)

/-- The entries after a change at a path below them.  Tables on the way are
made if need be. -/
def change (f : Entries → Option Entries) : List String → Entries → Option Entries
  | [], entries => f entries
  | name :: path, entries =>
    match entries.lookup name with
    | none => do
      let inner ← change f path []
      return entries ++ [(name, .table .enclosing inner)]
    | some (.table origin inner) => do
      let inner ← change f path inner
      return entries.replace name (.table origin inner)
    | some (.tables last before) => do
      let last ← change f path last
      return entries.replace name (.tables last before)
    | some (.value _) => none

/-- The entries with a table under a header. -/
def openTable (name : String) (entries : Entries) : Option Entries :=
  match entries.lookup name with
  | none => some (entries ++ [(name, .table .header [])])
  | some (.table .enclosing inner) => some (entries.replace name (.table .header inner))
  | some _ => none

/-- The entries with a further table under a repeated header. -/
def openFurther (name : String) (entries : Entries) : Option Entries :=
  match entries.lookup name with
  | none => some (entries ++ [(name, .tables [] [])])
  | some (.tables last before) => some (entries.replace name (.tables [] (last :: before)))
  | some _ => none

/-- The entries with a value under a dotted key: the names on the way and the
last one.  A table that a dotted key adds to has to come from dotted keys. -/
def assign (isOpen : Bool) (name : String) (value : Value) :
    List String → Entries → Option Entries
  | [], entries =>
    if isOpen && (entries.lookup name).isNone then some (entries ++ [(name, .value value)])
    else none
  | step :: path, entries =>
    match entries.lookup step with
    | none => do
      let inner ← assign true name value path []
      return entries ++ [(step, .table .dotted inner)]
    | some (.table .header _) | some (.value _) => none
    | some (.table origin inner) => do
      let inner ← assign (origin = .dotted) name value path inner
      return entries.replace step (.table origin inner)
    | some (.tables last before) => do
      let last ← assign false name value path last
      return entries.replace step (.tables last before)

mutual

/-- The value that a node has in the end. -/
def Node.freeze : Node → Value
  | .value value => value
  | .table _ entries => .table (freezeAll entries)
  | .tables last before => .array (freezeTables [.table (freezeAll last)] before)

/-- The values of named nodes. -/
def freezeAll : List (String × Node) → List (String × Value)
  | [] => []
  | (name, node) :: rest => (name, node.freeze) :: freezeAll rest

/-- The values of tables, the last of them first, before `done`. -/
def freezeTables (done : List Value) : List (List (String × Node)) → List Value
  | [] => done
  | entries :: rest => freezeTables (.table (freezeAll entries) :: done) rest

end

end Toml
end Pictogram
