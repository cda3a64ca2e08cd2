import Pictogram.Store
import Mathlib.Data.List.Basic

/-!
# Reading a changed store

The value of every name after a name has been declared, set or removed.
-/

namespace Pictogram
namespace Store

theorem contains_eq (store : Store) (name : String) :
    store.contains name = (store.get? name).isSome := rfl

/-- A declaration binds a free name, and no other. -/
theorem declare?_eq_some
    {store after : Store}
    {name : String}
    {value : Value}
    (declared : store.declare? name value = some after) :
    store.get? name = none ∧
      ∀ other, after.get? other = if other = name then some value else store.get? other := by
  unfold declare? at declared
  split at declared
  · cases declared
  · rename_i free
    obtain rfl := Option.some.inj declared
    refine ⟨by simpa [contains_eq] using free, fun other => ?_⟩
    simp only [get?, List.lookup_cons]
    by_cases same : other = name
    · simp [same]
    · have different : (other == name) = false := by simpa using same
      rw [different, if_neg same]

/-- Only a name that is bound cannot be declared. -/
theorem declare?_eq_none
    {store : Store}
    {name : String}
    {value : Value}
    (refused : store.declare? name value = none) :
    (store.get? name).isSome := by
  unfold declare? at refused
  split at refused
  · rename_i bound
    exact bound
  · cases refused

theorem lookup_map_value
    (bindings : List (String × Value))
    (name : String)
    (value : Value)
    (other : String) :
    (bindings.map fun (bound, old) => (bound, if bound = name then value else old)).lookup other =
      (bindings.lookup other).map fun old => if other = name then value else old := by
  induction bindings with
  | nil => rfl
  | cons binding rest inductionHypothesis =>
      obtain ⟨bound, old⟩ := binding
      simp only [List.map_cons, List.lookup_cons]
      by_cases same : other = bound
      · subst same
        simp
      · have different : (other == bound) = false := by simpa using same
        simpa [different] using inductionHypothesis

/-- An assignment changes a bound name, and no other. -/
theorem set?_eq_some
    {store after : Store}
    {name : String}
    {value : Value}
    (changed : store.set? name value = some after) :
    (store.get? name).isSome ∧
      ∀ other, after.get? other = if other = name then some value else store.get? other := by
  unfold set? at changed
  split at changed
  · rename_i bound
    obtain rfl := Option.some.inj changed
    rw [contains_eq] at bound
    refine ⟨bound, fun other => ?_⟩
    rw [get?, lookup_map_value]
    by_cases same : other = name
    · obtain ⟨old, found⟩ := Option.isSome_iff_exists.mp bound
      subst same
      rw [get?] at found
      simp [found]
    · simp [same, get?]
  · cases changed

/-- Only a name that is not bound cannot be assigned. -/
theorem set?_eq_none
    {store : Store}
    {name : String}
    {value : Value}
    (refused : store.set? name value = none) :
    store.get? name = none := by
  unfold set? at refused
  split at refused
  · cases refused
  · rename_i free
    simpa [contains_eq] using free

/-- Removing a name frees it, and no other. -/
theorem get?_remove (store : Store) (name other : String) :
    (store.remove name).get? other = if other = name then none else store.get? other := by
  obtain ⟨bindings⟩ := store
  simp only [remove, get?]
  induction bindings with
  | nil => simp
  | cons binding rest inductionHypothesis =>
      obtain ⟨bound, value⟩ := binding
      by_cases removed : bound = name
      · subst removed
        rw [List.filter_cons_of_neg (by simp), inductionHypothesis, List.lookup_cons]
        by_cases same : other = bound
        · simp [same]
        · have different : (other == bound) = false := by simpa using same
          rw [different]
      · rw [List.filter_cons_of_pos (by simpa using removed), List.lookup_cons, List.lookup_cons,
          inductionHypothesis]
        by_cases same : other = bound
        · subst same
          simp [removed]
        · have different : (other == bound) = false := by simpa using same
          rw [different]

end Store
end Pictogram
