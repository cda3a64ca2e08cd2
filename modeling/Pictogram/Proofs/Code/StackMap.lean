import Pictogram.Proofs.Code.Acceptance
import Pictogram.Proofs.Code.Access
import Pictogram.Proofs.Code.Typing
import Pictogram.Proofs.Machine.Flow

/-!
# The stack map of a program

The marks of the code of a program, with the return behind it, are the one stack
map that its method `main` has.
-/

namespace Pictogram

namespace Compile

open Pictogram.Class (Pool)
open Machine (Action Order Kind Routine StackMap edgeHeights)

/-- Marks at different addresses are found by their addresses. -/
theorem lookup_eq_some_iff
    {marks : List Mark}
    (distinct : (marks.map Prod.fst).Nodup)
    {address : Nat}
    {stack : List Kind} :
    marks.lookup address = some stack ↔ (address, stack) ∈ marks := by
  induction marks with
  | nil => simp
  | cons mark rest inductionHypothesis =>
      obtain ⟨place, kinds⟩ := mark
      obtain ⟨absent, distinctRest⟩ := List.nodup_cons.mp distinct
      rw [List.lookup_cons]
      by_cases same : address = place
      · subst same
        have elsewhere : (address, stack) ∉ rest := fun present =>
          absent (List.mem_map.mpr ⟨_, present, rfl⟩)
        simp [elsewhere, eq_comm]
      · have different : (address == place) = false := by simpa using same
        simp [different, inductionHypothesis distinctRest, same]

/-- A branch uses no local variable. -/
theorem Branches.not_accesses
    {routine : Routine}
    {address target : Nat}
    {test : Machine.Test}
    {slot : UInt8}
    {cell : Machine.Cell}
    (branches : Branches routine.code address test target) :
    ¬routine.Accesses address slot cell := by
  rintro ⟨action, size, read, found⟩
  rw [branches] at read
  obtain ⟨rfl, -⟩ := Prod.mk.inj (Option.some.inj read)
  cases found

/-- The local variables that the marked instructions use are those of the tree. -/
theorem Typed.accesses
    {routine : Routine}
    {tree : Tree}
    {address : Nat}
    {stack next : List Kind}
    {marks : List Mark}
    {slot : UInt8}
    {cell : Machine.Cell}
    (typed : Typed routine.pool tree address stack next marks)
    (fits : tree.Fits)
    (stands : Stands routine.code address tree.bytes) :
    ∀ mark ∈ marks, routine.Accesses mark.1 slot cell → (slot, cell) ∈ tree.accesses := by
  induction typed with
  | empty => simp
  | plain means _ _ =>
      rw [Tree.bytes_plain] at stands
      simp only [List.mem_singleton, forall_eq]
      rintro ⟨action, size, read, found⟩
      rw [stands.read? means] at read
      obtain ⟨rfl, -⟩ := Prod.mk.inj (Option.some.inj read)
      rw [Tree.accesses_plain means, found]
      simp
  | seq _ _ firstAccesses secondAccesses =>
      obtain ⟨firstStands, secondStands⟩ := Tree.stands_seq.mp stands
      rw [Tree.accesses_seq]
      intro mark present accesses
      rcases List.mem_append.mp present with inFirst | inSecond
      · exact List.mem_append_left _ (firstAccesses fits.1 firstStands mark inFirst accesses)
      · exact List.mem_append_right _ (secondAccesses fits.2 secondStands mark inSecond accesses)
  | skip _ _ _ bodyAccesses =>
      obtain ⟨branches, bodyStands⟩ := Tree.stands_skip fits stands
      rw [Tree.accesses_skip]
      intro mark present accesses
      rcases List.mem_cons.mp present with rfl | inBody
      · exact absurd accesses branches.not_accesses
      · exact bodyAccesses fits.1 bodyStands mark inBody accesses
  | choose _ _ _ _ bodyAccesses restAccesses =>
      obtain ⟨branches, bodyStands, goesOn, restStands⟩ := Tree.stands_choose fits stands
      rw [Tree.accesses_choose]
      intro mark present accesses
      simp only [List.cons_append, List.mem_cons, List.mem_append] at present
      rcases present with rfl | inBody | rfl | inRest
      · exact absurd accesses branches.not_accesses
      · exact List.mem_append_left _ (bodyAccesses fits.1 bodyStands mark inBody accesses)
      · exact absurd accesses goesOn.not_accesses
      · exact List.mem_append_right _ (restAccesses fits.2.1 restStands mark inRest accesses)
  | loop _ _ _ _ headAccesses bodyAccesses =>
      obtain ⟨headStands, branches, bodyStands, goesBack⟩ := Tree.stands_loop fits stands
      rw [Tree.accesses_loop]
      intro mark present accesses
      simp only [List.append_assoc, List.cons_append, List.mem_append, List.mem_cons,
        List.not_mem_nil, or_false] at present
      rcases present with inHead | rfl | inBody | rfl
      · exact List.mem_append_left _ (headAccesses fits.1 headStands mark inHead accesses)
      · exact absurd accesses branches.not_accesses
      · exact List.mem_append_right _ (bodyAccesses fits.2.1 bodyStands mark inBody accesses)
      · exact absurd accesses goesBack.not_accesses

namespace MainCode

variable {program : Program} {routine : Routine} {tree : Tree} {slots : Slots}
  {marks : List Mark}

/-- The marks of the code and of the return behind it. -/
abbrev allMarks (tree : Tree) (marks : List Mark) : List Mark := marks ++ [(tree.size, [])]

theorem stands (main : MainCode program routine tree slots) :
    Stands routine.code 0 tree.bytes ∧ Stands routine.code (0 + tree.size) Order.leave.bytes := by
  rw [← Tree.bytes_plain, ← Tree.stands_seq, main.bytes]
  exact List.prefix_refl _

/-- The code of the main method is read back as the instructions of its tree and a return. -/
theorem decode_eq (main : MainCode program routine tree slots) :
    Machine.decode routine.code = Order.place 0 (tree.orders ++ [.leave]) := by
  rw [main.bytes]
  exact Order.decode_listBytes _

/-- There is a mark at every instruction of the code, in order. -/
theorem map_fst_allMarks
    (main : MainCode program routine tree slots)
    (typed : Typed routine.pool tree 0 [] [] marks) :
    (allMarks tree marks).map Prod.fst = (Machine.decode routine.code).map (·.address) := by
  have size : (Order.listBytes tree.orders).length = tree.size := tree.length_bytes
  rw [main.decode_eq, Order.place_append, List.map_append, List.map_append, typed.map_fst, size]
  simp [Order.place, Order.standing]

/-- No address is marked twice. -/
theorem distinct_allMarks
    (main : MainCode program routine tree slots)
    (typed : Typed routine.pool tree 0 [] [] marks) :
    ((allMarks tree marks).map Prod.fst).Nodup := by
  rw [main.map_fst_allMarks typed, main.decode_eq]
  exact (Order.pairwise_place _ _).1.imp fun less => Nat.ne_of_lt less

/-- A place that is marked in the tree, or where the tree is left, is marked in the code. -/
theorem arrives
    {place : Nat}
    {stack : List Kind}
    (arrived : Arrives marks (0 + tree.size) [] place stack) :
    (place, stack) ∈ allMarks tree marks := by
  rcases arrived with marked | ⟨rfl, rfl⟩
  · exact List.mem_append_left _ marked
  · simp

/-- The return finds the stack empty and leads nowhere. -/
theorem retypes_leave (main : MainCode program routine tree slots) :
    routine.Retypes tree.size [] [] [] := by
  have read := main.stands.2.read? (show Order.leave.action? = some .leave from rfl)
  rw [Nat.zero_add] at read
  exact ⟨.leave, _, read, rfl, rfl⟩

/-- The stack at an address, as marked. -/
def stackAt (tree : Tree) (marks : List Mark) (address : Nat) : Option (List Kind) :=
  (allMarks tree marks).lookup address

/-- The marks of a typed tree are a stack map of the main method. -/
theorem stackMap
    (main : MainCode program routine tree slots)
    (typed : Typed routine.pool tree 0 [] [] marks) :
    StackMap routine (stackAt tree marks) where
  domain := by
    intro address
    have addresses := main.map_fst_allMarks typed
    have distinct := main.distinct_allMarks typed
    have listed : (∃ instruction ∈ Machine.decode routine.code, instruction.address = address) ↔
        address ∈ (allMarks tree marks).map Prod.fst := by
      rw [addresses, List.mem_map]
    rw [listed, Option.isSome_iff_exists]
    simp only [stackAt, lookup_eq_some_iff distinct, List.mem_map, Prod.exists,
      exists_and_right, exists_eq_right]
  entry := by
    rw [stackAt, lookup_eq_some_iff (main.distinct_allMarks typed)]
    exact arrives typed.entry
  flow := by
    have distinct := main.distinct_allMarks typed
    simp only [stackAt, lookup_eq_some_iff distinct]
    intro address stack present
    rcases List.mem_append.mp present with marked | last
    · obtain ⟨next, targets, retypes, leads⟩ :=
        typed.flows main.fits main.stands.1 (address, stack) marked
      refine ⟨next, targets, retypes, fun target present => ?_⟩
      obtain ⟨place, isPlace, arrived⟩ := leads target present
      exact ⟨place, isPlace, arrives arrived⟩
    · obtain ⟨rfl, rfl⟩ := Prod.mk.inj (List.mem_singleton.mp last)
      exact ⟨[], [], main.retypes_leave, by simp⟩

/-- No other assignment of stacks is a stack map. -/
theorem stackMap_unique
    (main : MainCode program routine tree slots)
    (typed : Typed routine.pool tree 0 [] [] marks)
    {other : Nat → Option (List Kind)}
    (isMap : StackMap routine other) :
    other = stackAt tree marks := by
  have distinct := main.distinct_allMarks typed
  obtain ⟨inside, last⟩ := typed.forced isMap.flow main.fits main.stands.1 isMap.entry
  rw [Nat.zero_add] at last
  have agrees : ∀ mark ∈ allMarks tree marks, other mark.1 = some mark.2 := by
    refine List.forall_mem_append.mpr ⟨inside, ?_⟩
    simpa using last
  funext address
  cases found : stackAt tree marks address with
  | some stack => exact agrees (address, stack) ((lookup_eq_some_iff distinct).mp found)
  | none =>
      -- Both maps have the same addresses, those of the instructions.
      have same := (isMap.domain address).trans ((main.stackMap typed).domain address).symm
      rw [found] at same
      simpa using same

/-- What an instruction makes of the kinds on the stack, and where it leads, is determined. -/
theorem retypes_unique
    {address : Nat}
    {stack next otherNext : List Kind}
    {targets otherTargets : List Int}
    (retypes : routine.Retypes address stack next targets)
    (otherRetypes : routine.Retypes address stack otherNext otherTargets) :
    next = otherNext ∧ targets = otherTargets := by
  obtain ⟨action, size, read, retyped, rfl⟩ := retypes
  obtain ⟨otherAction, otherSize, otherRead, otherRetyped, rfl⟩ := otherRetypes
  rw [read] at otherRead
  obtain ⟨rfl, rfl⟩ := Prod.mk.inj (Option.some.inj otherRead)
  rw [retyped] at otherRetyped
  exact ⟨Option.some.inj otherRetyped, rfl⟩

/-- The greatest height of the stack on any way is the one that the method states. -/
theorem isGreatest_maxStack
    (main : MainCode program routine tree slots)
    (typed : Typed routine.pool tree 0 [] [] marks) :
    IsGreatest (insert 0 (edgeHeights routine (stackAt tree marks)))
      routine.maxStack.toNat := by
  have distinct := main.distinct_allMarks typed
  have stated := main.maxStack
  have nonneg := tree.peak_nonneg
  constructor
  · rcases typed.climbs_peak main.stands.1 main.fits with flat | climbs
    · exact .inl (by omega)
    · obtain ⟨⟨address, stack⟩, marked, next, targets, retypes, leads, height⟩ := climbs
      simp only [List.length_nil, Int.natCast_zero, Int.zero_add] at height
      refine .inr ⟨address, stack, next, targets, ?_, retypes, leads, by omega⟩
      rw [stackAt, lookup_eq_some_iff distinct]
      exact List.mem_append_left _ marked
  · rintro height (rfl | ⟨address, stack, next, targets, found, retypes, leads, rfl⟩)
    · exact Nat.zero_le _
    · obtain ⟨flowNext, flowTargets, flowRetypes, arrives⟩ :=
        (main.stackMap typed).flow address stack found
      obtain ⟨rfl, rfl⟩ := retypes_unique retypes flowRetypes
      obtain ⟨target, present⟩ := List.exists_mem_of_ne_nil _ leads
      obtain ⟨place, -, reached⟩ := arrives target present
      rw [stackAt, lookup_eq_some_iff distinct] at reached
      rcases List.mem_append.mp reached with marked | last
      · have low := typed.length_le_peak _ marked
        simp only [List.length_nil, Int.natCast_zero, Int.zero_add] at low
        omega
      · obtain ⟨-, rfl⟩ := Prod.mk.inj (List.mem_singleton.mp last)
        exact Nat.zero_le _

/-- What the slots hold over the whole program. -/
theorem obeys (main : MainCode program routine tree slots) :
    ∃ cells, tree.Obeys cells routine.maxLocals.toNat := by
  have nothing : Slots.empty.Hold fun _ => .int := by simp [Slots.Hold, Slots.empty]
  obtain ⟨cells, -, -, obeys⟩ := main.code.obeys Slots.valid_empty nothing
  exact ⟨cells, main.maxLocals ▸ obeys⟩

/-- A marked instruction uses only local variables that the tree uses. -/
theorem mem_accesses
    (main : MainCode program routine tree slots)
    (typed : Typed routine.pool tree 0 [] [] marks)
    {address : Nat}
    {slot : UInt8}
    {cell : Machine.Cell}
    (marked : (stackAt tree marks address).isSome)
    (accesses : routine.Accesses address slot cell) :
    (slot, cell) ∈ tree.accesses := by
  obtain ⟨stack, found⟩ := Option.isSome_iff_exists.mp marked
  rw [stackAt, lookup_eq_some_iff (main.distinct_allMarks typed)] at found
  rcases List.mem_append.mp found with inside | last
  · exact typed.accesses main.fits main.stands.1 (address, stack) inside accesses
  · obtain ⟨rfl, rfl⟩ := Prod.mk.inj (List.mem_singleton.mp last)
    obtain ⟨action, size, read, isLocal⟩ := accesses
    have returns := main.stands.2.read? (show Order.leave.action? = some .leave from rfl)
    rw [Nat.zero_add, read] at returns
    obtain ⟨rfl, -⟩ := Prod.mk.inj (Option.some.inj returns)
    cases isLocal

end MainCode

/-- The method `main` of every class that is generated has exactly one stack map.  Each
of its local variables is used for integers only or for references only, and the
height that the method states is the greatest that the stack has on any way from one
instruction to another, counting the empty stack that it begins with. -/
theorem exists_unique_stackMap
    {options : Options}
    {program : Program}
    {file : Class.File}
    (made : classFile options program = .ok file) :
    ∃ routine stackAt, file.routine? "main" = some routine ∧
      StackMap routine stackAt ∧
      (∀ other, StackMap routine other → other = stackAt) ∧
      (∀ first second slot firstCell secondCell,
        (stackAt first).isSome → (stackAt second).isSome →
        routine.Accesses first slot firstCell → routine.Accesses second slot secondCell →
        firstCell = secondCell) ∧
      IsGreatest (insert 0 (edgeHeights routine stackAt)) routine.maxStack.toNat := by
  obtain ⟨routine, tree, slots, found, main⟩ := classFile_ok made
  obtain ⟨marks, typed⟩ := main.code.typed 0 []
  obtain ⟨cells, obeys⟩ := main.obeys
  refine ⟨routine, MainCode.stackAt tree marks, found, main.stackMap typed,
    fun other isMap => main.stackMap_unique typed isMap, ?_, main.isGreatest_maxStack typed⟩
  intro first second slot firstCell secondCell firstMarked secondMarked firstUses secondUses
  have firstHolds := (obeys _ (main.mem_accesses typed firstMarked firstUses)).2
  have secondHolds := (obeys _ (main.mem_accesses typed secondMarked secondUses)).2
  exact firstHolds.symm.trans secondHolds

theorem exists_unique_stackMap_totals :
    ∃ file routine stackAt, classFile ⟨"Totals", none⟩ totals = .ok file ∧
      file.routine? "main" = some routine ∧ StackMap routine stackAt ∧
      (∀ other, StackMap routine other → other = stackAt) ∧
      IsGreatest (insert 0 (edgeHeights routine stackAt)) routine.maxStack.toNat := by
  obtain ⟨file, made⟩ := exists_classFile_totals
  obtain ⟨routine, stackAt, found, isMap, unique, -, greatest⟩ := exists_unique_stackMap made
  exact ⟨file, routine, stackAt, made, found, isMap, unique, greatest⟩

end Compile
end Pictogram
