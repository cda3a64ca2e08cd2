import Pictogram.Value

/-!
# The store of variables

There is one store for a whole program: names with their values, each name at
most once.  Declaring, setting and removing are the only ways to change it.
-/

namespace Pictogram

/-- Variables with their values. -/
structure Store where
  /-- The names with their values, the latest declaration first. -/
  bindings : List (String × Value)

namespace Store

/-- No variable at all. -/
def empty : Store := ⟨[]⟩

/-- The value of a variable. -/
def get? (store : Store) (name : String) : Option Value :=
  store.bindings.lookup name

/-- Whether the variable is bound. -/
def contains (store : Store) (name : String) : Bool :=
  (store.get? name).isSome

/-- The store with a new variable; there is none if the name is bound. -/
def declare? (store : Store) (name : String) (value : Value) : Option Store :=
  if store.contains name then none else some ⟨(name, value) :: store.bindings⟩

/-- The store with another value for a variable; there is none if the name is
not bound. -/
def set? (store : Store) (name : String) (value : Value) : Option Store :=
  if store.contains name then
    some ⟨store.bindings.map fun (bound, old) => (bound, if bound = name then value else old)⟩
  else none

/-- The store without a variable. -/
def remove (store : Store) (name : String) : Store :=
  ⟨store.bindings.filter fun (bound, _) => bound ≠ name⟩

/-- The number of variables. -/
def size (store : Store) : Nat := store.bindings.length

/-- Whether there is no variable. -/
def isEmpty (store : Store) : Bool := store.bindings.isEmpty

/-- The variables by name, in the order of code points. -/
def sorted (store : Store) : List (String × Value) :=
  store.bindings.mergeSort fun (first, _) (second, _) => !decide (second < first)

end Store

end Pictogram
