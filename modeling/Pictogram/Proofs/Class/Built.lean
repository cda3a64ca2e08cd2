import Pictogram.Proofs.Code.Pool

/-!
# Pools that additions have made

Whatever is added to a pool, and whether it is refused or not, all that happens is
that new constants are put behind the old ones.  So the entries of a pool that was
empty first are those of its constants, one constant after another.
-/

namespace Pictogram
namespace Class

/-- A constant takes as many entries as it is wide. -/
theorem Constant.length_entries (constant : Constant) :
    constant.entries.length = constant.width := by
  unfold entries width
  split <;> rfl

theorem Constant.filterMap_entries (constant : Constant) :
    constant.entries.filterMap id = [constant] := by
  unfold entries
  split <;> rfl

namespace Pool

/-- An addition to a pool. -/
inductive Operation where
  | add (constant : Constant)
  | text (content : String)
  | classRef (name : String)
  | stringRef (content : String)
  | integer (value : Int32)
  | float (bits : UInt32)
  | long (value : Int64)
  | double (bits : UInt64)
  | nameAndType (name descriptor : String)
  | fieldRef (owner name descriptor : String)
  | methodRef (owner name descriptor : String)

/-- What an addition does. -/
def Operation.run : Operation → Build UInt16
  | .add constant => Pool.add constant
  | .text content => Pool.text content
  | .classRef name => Pool.classRef name
  | .stringRef content => Pool.stringRef content
  | .integer value => Pool.integer value
  | .float bits => Pool.float bits
  | .long value => Pool.long value
  | .double bits => Pool.double bits
  | .nameAndType name descriptor => Pool.nameAndType name descriptor
  | .fieldRef owner name descriptor => Pool.fieldRef owner name descriptor
  | .methodRef owner name descriptor => Pool.methodRef owner name descriptor

/-- The pool that is left, whether an addition was refused or not. -/
def left {α : Type} : EStateM.Result Compile.Error Pool α → Pool
  | .ok _ pool | .error _ pool => pool

/-- The pool after an addition. -/
def after (pool : Pool) (operation : Operation) : Pool :=
  left (operation.run pool)

/-- The pool comes from additions to an empty one. -/
def Built (pool : Pool) : Prop :=
  ∃ operations : List Operation, operations.foldl after empty = pool

/-- The entries are those of the constants in a row, and every index can be written. -/
structure Aligned (pool : Pool) : Prop where
  /-- A wide constant, and no other, leaves an entry empty behind it. -/
  toList_entries : pool.entries.toList = pool.constants.flatMap Constant.entries
  /-- The last index is within bounds. -/
  size_lt : pool.size < indexBound

theorem aligned_empty : empty.Aligned where
  toList_entries := rfl
  size_lt := by decide

/-- A pool that has grown holds the new constant behind the old ones. -/
theorem constants_append (pool : Pool) (constant : Constant) :
    (pool.append constant).constants = pool.constants ++ [constant] := by
  rw [constants, toList_entries_append, List.filterMap_append, constant.filterMap_entries]
  rfl

/-- A constant for which there is room leaves a pool aligned. -/
theorem Aligned.append
    {pool : Pool}
    {constant : Constant}
    (aligned : pool.Aligned)
    (room : pool.entries.size + 1 + constant.width ≤ indexBound) :
    (pool.append constant).Aligned where
  toList_entries := by
    rw [toList_entries_append, constants_append, List.flatMap_append, aligned.toList_entries,
      List.flatMap_singleton]
  size_lt := by
    rw [size, ← Array.length_toList, toList_entries_append, List.length_append,
      Array.length_toList, constant.length_entries]
    omega

/-- The second pool is the first with new constants for which there was room. -/
inductive Grows (pool : Pool) : Pool → Prop where
  | refl : Grows pool pool
  | append
    {middle : Pool}
    {constant : Constant}
    (grows : Grows pool middle)
    (new : middle.indices[constant]? = none)
    (room : middle.entries.size + 1 + constant.width ≤ indexBound) :
    Grows pool (middle.append constant)

theorem Grows.trans
    {first second third : Pool}
    (earlier : first.Grows second)
    (later : second.Grows third) :
    first.Grows third := by
  induction later with
  | refl => exact earlier
  | append _ new room inductionHypothesis => exact inductionHypothesis.append new room

/-- What stands in a pool stays where it is. -/
theorem Grows.kept {pool grown : Pool} (grows : pool.Grows grown) : pool.Extends grown := by
  induction grows with
  | refl => exact .refl pool
  | append _ _ _ inductionHypothesis => exact inductionHypothesis.trans (extends_append _ _)

/-- A known constant keeps its index. -/
theorem Grows.index_eq
    {pool grown : Pool}
    {constant : Constant}
    {index : UInt16}
    (grows : pool.Grows grown)
    (known : pool.indices[constant]? = some index) :
    grown.indices[constant]? = some index := by
  induction grows with
  | refl => exact known
  | @append middle other _ new _ inductionHypothesis =>
      have different : (other == constant) = false := by
        apply beq_false_of_ne
        rintro rfl
        rw [new] at inductionHypothesis
        cases inductionHypothesis
      show (middle.indices.insert other _)[constant]? = some index
      rw [Std.HashMap.getElem?_insert, different]
      exact inductionHypothesis

/-- Whether it is refused or not, all that is done to a pool is to add new constants; and what
has been done without a refusal can be done again, with the same result and no change. -/
structure Additive {α : Type} (build : Build α) : Prop where
  grows (pool : Pool) : pool.Grows (left (build pool))
  repeats
    {pool grown later : Pool}
    {value : α}
    (done : build pool = .ok value grown)
    (grows : grown.Grows later) :
    build later = .ok value later

/-- What is done to a pool without a refusal makes it grow. -/
theorem Additive.grows_of_ok
    {α : Type}
    {build : Build α}
    {pool grown : Pool}
    {value : α}
    (additive : Additive build)
    (done : build pool = .ok value grown) :
    pool.Grows grown := by
  have grows := additive.grows pool
  rwa [done] at grows

/-- The index that an addition gives is known from then on. -/
theorem index_of_add
    {pool grown : Pool}
    {constant : Constant}
    {index : UInt16}
    (added : add constant pool = .ok index grown) :
    grown.indices[constant]? = some index := by
  rcases add_cases constant pool with ⟨known, isKnown, found⟩ | ⟨-, -, appended⟩ | ⟨-, -, refused⟩
  · cases found.symm.trans added
    exact isKnown
  · cases appended.symm.trans added
    exact Std.HashMap.getElem?_insert_self
  · cases refused.symm.trans added

namespace Additive

variable {α β : Type}

/-- Additions one after the other only add. -/
theorem bind
    {first : Build α}
    {next : α → Build β}
    (firstAdds : Additive first)
    (nextAdds : ∀ value, Additive (next value)) :
    Additive (first >>= next) where
  grows := by
    intro pool
    have begun := firstAdds.grows pool
    show pool.Grows (left (EStateM.bind first next pool))
    unfold EStateM.bind
    cases done : first pool with
    | ok value middle =>
        rw [done] at begun
        exact begun.trans ((nextAdds value).grows middle)
    | error error middle =>
        rw [done] at begun
        exact begun
  repeats := by
    intro pool grown later result done grows
    obtain ⟨value, middle, firstDone, nextDone⟩ := Stateful.bind_eq_ok.mp done
    have middleGrows := ((nextAdds value).grows_of_ok nextDone).trans grows
    exact Stateful.bind_eq_ok.mpr
      ⟨value, later, firstAdds.repeats firstDone middleGrows, (nextAdds value).repeats nextDone grows⟩

/-- The addition of one constant only adds, and to add it again changes nothing. -/
theorem add (constant : Constant) : Additive (Pool.add constant) where
  grows := by
    intro pool
    rcases add_cases constant pool with ⟨index, -, found⟩ | ⟨new, room, added⟩ | ⟨-, -, refused⟩
    · rw [found]
      exact .refl
    · rw [added]
      exact .append .refl new room
    · rw [refused]
      exact .refl
  repeats := by
    intro pool grown later index added grows
    unfold Pool.add
    rw [grows.index_eq (index_of_add added)]

theorem classRef (name : String) : Additive (Pool.classRef name) :=
  bind (add _) fun _ => add _

theorem nameAndType (name descriptor : String) : Additive (Pool.nameAndType name descriptor) :=
  bind (add _) fun _ => bind (add _) fun _ => add _

/-- Every operation on a pool only adds. -/
theorem run (operation : Operation) : Additive operation.run := by
  cases operation with
  | add constant => exact add constant
  | text content => exact add _
  | classRef name => exact classRef name
  | stringRef content => exact bind (add _) fun _ => add _
  | integer value => exact add _
  | float bits => exact add _
  | long value => exact add _
  | double bits => exact add _
  | nameAndType name descriptor => exact nameAndType name descriptor
  | fieldRef owner name descriptor =>
      exact bind (classRef owner) fun _ => bind (nameAndType name descriptor) fun _ => add _
  | methodRef owner name descriptor =>
      exact bind (classRef owner) fun _ => bind (nameAndType name descriptor) fun _ => add _

end Additive

/-- Operations one after another make a pool grow. -/
theorem grows_foldl (pool : Pool) (operations : List Operation) :
    pool.Grows (operations.foldl after pool) := by
  induction operations generalizing pool with
  | nil => exact .refl
  | cons operation rest inductionHypothesis =>
      exact ((Additive.run operation).grows pool).trans (inductionHypothesis (pool.after operation))

/-- An aligned pool stays aligned when it grows. -/
theorem Grows.aligned
    {pool grown : Pool}
    (grows : pool.Grows grown)
    (aligned : pool.Aligned) :
    grown.Aligned := by
  induction grows with
  | refl => exact aligned
  | append _ _ room inductionHypothesis => exact inductionHypothesis.append room

/-- Every pool that additions have made is aligned. -/
theorem Built.aligned {pool : Pool} (built : pool.Built) : pool.Aligned := by
  obtain ⟨operations, rfl⟩ := built
  exact (grows_foldl empty operations).aligned aligned_empty

/-- The constants of a pool are those that stand at its indices. -/
theorem mem_constants_iff
    {pool : Pool}
    {constant : Constant}
    (aligned : pool.Aligned) :
    constant ∈ pool.constants ↔ ∃ index, pool.get? index = some constant := by
  have asEntry : constant ∈ pool.constants ↔ some constant ∈ pool.entries.toList := by
    simp [constants]
  rw [asEntry, List.mem_iff_getElem?]
  simp only [Array.getElem?_toList]
  constructor
  · rintro ⟨place, stands⟩
    obtain ⟨inside, -⟩ := Array.getElem?_eq_some_iff.mp stands
    have bound : pool.entries.size < 65535 := aligned.size_lt
    have back : (UInt16.ofNat (place + 1)).toNat = place + 1 :=
      UInt16.toNat_ofNat_of_lt' (by show _ < 65536; omega)
    refine ⟨UInt16.ofNat (place + 1), ?_⟩
    rw [get?_eq, back, if_neg (by omega), Nat.add_sub_cancel, stands]
    rfl
  · rintro ⟨index, stands⟩
    rw [get?_eq] at stands
    split at stands
    · cases stands
    · exact ⟨index.toNat - 1, Option.join_eq_some_iff.mp stands⟩

end Pool
end Class
end Pictogram
