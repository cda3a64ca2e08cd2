import Pictogram.Proofs.Class.Built
import Pictogram.Proofs.Code.Links

/-!
# One index for each constant

Whatever has been added to a pool and refused by it, its table and its entries say
the same: each constant stands at one index, and the table knows that index.  An
index that has been given for a constant is its index for good.
-/

namespace Pictogram
namespace Class
namespace Pool

/-- The table knows the constants that stand in the pool, by the indices at which they stand. -/
def Agrees (pool : Pool) : Prop :=
  ∀ constant index, pool.indices[constant]? = some index ↔ pool.get? index = some constant

/-- The table and the entries of a pool are in order. -/
structure Consistent (pool : Pool) : Prop where
  /-- They say the same. -/
  agrees : pool.Agrees
  /-- Equal constants stand at one index. -/
  unique : ∀ first second constant,
    pool.get? first = some constant → pool.get? second = some constant → first = second
  /-- The first entry is usable. -/
  usable_first : pool.entries[0]? ≠ some none
  /-- A later entry is unusable if it comes behind a wide constant, and not otherwise. -/
  unusable_iff : ∀ place, pool.entries[place + 1]? = some none ↔
    ∃ constant, pool.entries[place]? = some (some constant) ∧ constant.isWide
  /-- Index 65535 is not reached. -/
  size_le : pool.size ≤ 65534
  /-- The count that a class states is one more than the number of entries. -/
  toNat_count : pool.count.toNat = pool.size + 1

/-! ## The table -/

/-- What stands in a pool that has grown. -/
theorem get?_append_eq_some_iff
    {pool : Pool}
    {constant other : Constant}
    {index : UInt16}
    (room : pool.entries.size + 1 < 65536) :
    (pool.append constant).get? index = some other ↔
      pool.get? index = some other ∨
        (index = UInt16.ofNat (pool.entries.size + 1) ∧ other = constant) := by
  constructor
  · intro stands
    rcases eq_of_get?_append stands with old | ⟨place, rfl⟩
    · exact .inl old
    · refine .inr ⟨?_, rfl⟩
      apply UInt16.toNat_inj.mp
      rw [place, UInt16.toNat_ofNat_of_lt' room]
      rfl
  · rintro (old | ⟨rfl, rfl⟩)
    · exact extends_append pool constant index other old
    · exact get?_append pool other room

/-- The table of an empty pool says what stands in it: nothing. -/
theorem agrees_empty : empty.Agrees := by
  intro constant index
  simp [empty, get?_eq]

/-- The table still says what stands in a pool when a new constant is appended. -/
theorem Agrees.append
    {pool : Pool}
    {constant : Constant}
    (agrees : pool.Agrees)
    (new : pool.indices[constant]? = none)
    (room : pool.entries.size + 1 < 65536) :
    (pool.append constant).Agrees := by
  intro other index
  have table : (pool.append constant).indices =
      pool.indices.insert constant (UInt16.ofNat (pool.entries.size + 1)) := rfl
  rw [get?_append_eq_some_iff room, ← agrees other index, table, Std.HashMap.getElem?_insert]
  by_cases same : constant = other
  · subst same
    simp [new, eq_comm]
  · have different : (constant == other) = false := beq_false_of_ne same
    simp [different, Ne.symm same]

/-- The table still says what stands in a pool when the pool grows. -/
theorem Grows.agrees
    {pool grown : Pool}
    (grows : pool.Grows grown)
    (agrees : pool.Agrees) :
    grown.Agrees := by
  induction grows with
  | refl => exact agrees
  | @append middle constant _ new room inductionHypothesis =>
      have small : middle.entries.size + 1 < 65536 := by
        simp only [indexBound] at room
        omega
      exact inductionHypothesis.append new small

/-! ## Unusable entries -/

/-- In a row of constants, what comes behind a wide one is unusable, and nothing else. -/
theorem unusable_flatMap (constants : List Constant) :
    (constants.flatMap Constant.entries)[0]? ≠ some none ∧
    ∀ place, (constants.flatMap Constant.entries)[place + 1]? = some none ↔
      ∃ constant, (constants.flatMap Constant.entries)[place]? = some (some constant) ∧
        constant.isWide := by
  induction constants with
  | nil => simp
  | cons first rest inductionHypothesis =>
      obtain ⟨notFirst, behind⟩ := inductionHypothesis
      rw [List.flatMap_cons, Constant.entries]
      refine ⟨by simp, fun place => ?_⟩
      by_cases wide : first.isWide
      · rcases place with _ | _ | place
        · simp [wide]
        · simpa [wide] using notFirst
        · simpa [wide] using behind place
      · rcases place with _ | place
        · simpa [wide] using notFirst
        · simpa [wide] using behind place

/-! ## Pools that additions have made -/

/-- A pool is in order if its table says what stands in it and its entries are those of its
constants. -/
theorem Consistent.of_agrees
    {pool : Pool}
    (agrees : pool.Agrees)
    (aligned : pool.Aligned) :
    pool.Consistent := by
  have bound : pool.size < 65535 := aligned.size_lt
  have unusable := unusable_flatMap pool.constants
  simp only [← aligned.toList_entries, Array.getElem?_toList] at unusable
  exact
    { agrees := agrees
      unique := by
        intro first second constant firstStands secondStands
        rw [← agrees] at firstStands secondStands
        exact Option.some.inj (firstStands.symm.trans secondStands)
      usable_first := unusable.1
      unusable_iff := unusable.2
      size_le := by omega
      toNat_count := UInt16.toNat_ofNat_of_lt' (by show _ < 65536; omega) }

/-- A pool that operations have made is in order. -/
theorem consistent_foldl (operations : List Operation) :
    (operations.foldl after empty).Consistent :=
  have grows := grows_foldl empty operations
  .of_agrees (grows.agrees agrees_empty) (grows.aligned aligned_empty)

/-- A pool in order is sound. -/
theorem Consistent.sound {pool : Pool} (consistent : pool.Consistent) : pool.Sound where
  get?_of_index found := (consistent.agrees _ _).mp found
  size_lt := Nat.lt_succ_of_le consistent.size_le

/-! ## What an operation stands for -/

/-- The constant that an operation stands for.  The texts, the class and the signature that it
refers to are those at the indices that it holds. -/
def Operation.Denotes (pool : Pool) : Operation → Constant → Prop
  | .add constant, found => found = constant
  | .text content, found => found = .text content
  | .classRef name, found => ∃ place, found = .classRef place ∧ pool.text? place = some name
  | .stringRef content, found => ∃ place, found = .stringRef place ∧ pool.text? place = some content
  | .integer value, found => found = .integer value
  | .float bits, found => found = .float bits
  | .long value, found => found = .long value
  | .double bits, found => found = .double bits
  | .nameAndType name descriptor, found =>
    ∃ namePlace descriptorPlace, found = .nameAndType namePlace descriptorPlace ∧
      pool.text? namePlace = some name ∧ pool.text? descriptorPlace = some descriptor
  | .fieldRef owner name descriptor, found =>
    ∃ ownerPlace signature, found = .fieldRef ownerPlace signature ∧
      pool.member? ownerPlace signature = some ⟨owner, name, descriptor⟩
  | .methodRef owner name descriptor, found =>
    ∃ ownerPlace signature, found = .methodRef ownerPlace signature ∧
      pool.member? ownerPlace signature = some ⟨owner, name, descriptor⟩

/-- What an operation stands for stays the same when a pool grows. -/
theorem Operation.Denotes.extends
    {pool grown : Pool}
    {operation : Operation}
    {constant : Constant}
    (denotes : operation.Denotes pool constant)
    (kept : pool.Extends grown) :
    operation.Denotes grown constant := by
  cases operation with
  | add | text | integer | float | long | double => exact denotes
  | classRef | stringRef =>
      obtain ⟨place, isReference, stands⟩ := denotes
      exact ⟨place, isReference, kept.text? stands⟩
  | nameAndType =>
      obtain ⟨namePlace, descriptorPlace, isSignature, nameStands, descriptorStands⟩ := denotes
      exact ⟨namePlace, descriptorPlace, isSignature, kept.text? nameStands,
        kept.text? descriptorStands⟩
  | fieldRef | methodRef =>
      obtain ⟨ownerPlace, signature, isReference, stands⟩ := denotes
      exact ⟨ownerPlace, signature, isReference, kept.member? stands⟩

/-- An operation gives the index of the constant that it stands for. -/
theorem exists_denotes_of_run
    {pool grown : Pool}
    {operation : Operation}
    {index : UInt16}
    (sound : pool.Sound)
    (done : operation.run pool = .ok index grown) :
    ∃ constant, operation.Denotes grown constant ∧ grown.get? index = some constant := by
  cases operation with
  | add | text | integer | float | long | double => exact ⟨_, rfl, (add_ok sound done).2⟩
  | classRef | stringRef =>
      obtain ⟨-, place, stands, textStands⟩ := reference_ok sound done
      exact ⟨_, ⟨place, rfl, textStands⟩, stands⟩
  | nameAndType =>
      obtain ⟨-, namePlace, descriptorPlace, stands, texts⟩ := nameAndType_ok sound done
      exact ⟨_, ⟨namePlace, descriptorPlace, rfl, texts⟩, stands⟩
  | fieldRef | methodRef =>
      obtain ⟨-, ownerPlace, signature, stands, member⟩ := member_ok sound done
      exact ⟨_, ⟨ownerPlace, signature, rfl, member⟩, stands⟩

/-- A refused addition leaves the pool as it is. -/
theorem eq_of_add_refused
    {pool refused : Pool}
    {constant : Constant}
    {error : Compile.Error}
    (failed : add constant pool = .error error refused) :
    error = .poolOverflow ∧ refused = pool := by
  rcases add_cases constant pool with ⟨_, -, found⟩ | ⟨-, -, added⟩ | ⟨-, -, overflow⟩
  · cases found.symm.trans failed
  · cases added.symm.trans failed
  · cases overflow.symm.trans failed
    exact ⟨rfl, rfl⟩

/-- The table does not know a constant just when the constant stands nowhere. -/
theorem Agrees.new_iff
    {pool : Pool}
    (agrees : pool.Agrees)
    (constant : Constant) :
    pool.indices[constant]? = none ↔ ∀ index, pool.get? index ≠ some constant := by
  rw [Option.eq_none_iff_forall_ne_some]
  exact forall_congr' fun index => not_congr (agrees constant index)

/-- What is refused is a new constant for which there is no room. -/
theorem Agrees.add_refused_iff
    {pool : Pool}
    (agrees : pool.Agrees)
    (constant : Constant) :
    (∃ error refused, add constant pool = .error error refused) ↔
      (∀ index, pool.get? index ≠ some constant) ∧ 65534 < pool.size + constant.width := by
  have bound : 65534 < pool.size + constant.width ↔
      indexBound < pool.entries.size + 1 + constant.width := by
    simp only [size, indexBound]
    omega
  rw [← agrees.new_iff, bound]
  rcases add_cases constant pool with
    ⟨_, known, found⟩ | ⟨-, room, added⟩ | ⟨new, noRoom, refused⟩
  · simp [found, known]
  · simp [added, Nat.not_lt_of_le room]
  · simp [refused, new, noRoom]

/-- After any sequence of additions, among them refused ones, a pool is consistent.  An
operation that is not refused gives the index of a usable entry; from then on the constant that
it stands for is there, and to ask for it again gives the same index and changes nothing.  A
constant is refused exactly when it is new and its last entry would be above index 65534, and
then the pool stays as it is. -/
theorem indices_kept (operations : List Operation) :
    let pool := operations.foldl after empty
    pool.Consistent ∧
    (∀ (operation : Operation) index grown, operation.run pool = .ok index grown →
      index ≠ 0 ∧ ∃ constant, ∀ later : List Operation,
        operation.Denotes (later.foldl after grown) constant ∧
        (later.foldl after grown).get? index = some constant ∧
        add constant (later.foldl after grown) = .ok index (later.foldl after grown) ∧
        operation.run (later.foldl after grown) = .ok index (later.foldl after grown)) ∧
    (∀ constant index grown, add constant pool = .ok index grown →
      grown.get? index = some constant) ∧
    (∀ constant, (∃ error refused, add constant pool = .error error refused) ↔
      (∀ index, pool.get? index ≠ some constant) ∧ 65534 < pool.size + constant.width) ∧
    ∀ constant error refused, add constant pool = .error error refused →
      error = .poolOverflow ∧ refused = pool := by
  intro pool
  have consistent : pool.Consistent := consistent_foldl operations
  have agrees := consistent.agrees
  refine ⟨consistent, ?_, ?_, ?_, ?_⟩
  · intro operation index grown done
    obtain ⟨constant, denotes, stands⟩ := exists_denotes_of_run consistent.sound done
    have grownAgrees := ((Additive.run operation).grows_of_ok done).agrees agrees
    refine ⟨?_, constant, fun later => ?_⟩
    · rintro rfl
      simp [get?_eq] at stands
    · have grows := grows_foldl grown later
      have laterKnown := grows.index_eq ((grownAgrees constant index).mpr stands)
      refine ⟨denotes.extends grows.kept, grows.kept index constant stands, ?_,
        (Additive.run operation).repeats done grows⟩
      unfold add
      rw [laterKnown]
  · intro constant index grown added
    have grownAgrees := ((Additive.add constant).grows_of_ok added).agrees agrees
    exact (grownAgrees constant index).mp (index_of_add added)
  · exact agrees.add_refused_iff
  · intro constant error refused failed
    exact eq_of_add_refused failed

/-- A wide constant in an empty pool keeps its index when a class is named after it. -/
theorem indices_kept_long :
    add (.long 7) empty = .ok 1 (empty.append (.long 7)) ∧
    (after (empty.append (.long 7)) (.classRef "Main")).get? 1 = some (.long 7) := by
  have added : add (.long 7) empty = .ok 1 (empty.append (.long 7)) := by
    simp [add, empty, Constant.width, Constant.isWide, indexBound]
  obtain ⟨-, given, -⟩ := indices_kept []
  obtain ⟨-, constant, stays⟩ := given (.long 7) 1 _ added
  obtain ⟨rfl, stands, -⟩ := stays [.classRef "Main"]
  exact ⟨added, stands⟩

end Pool
end Class
end Pictogram
