import Pictogram.Proofs.Code.Layout
import Pictogram.Proofs.Code.Main
import Pictogram.Proofs.Machine.StackMap

/-!
# The stack along a tree

A tree that stands at an address turns one stack into another.  Its marks are the
stacks at its instructions.  Where parts of a tree meet they agree on the stack,
so the marks of a tree are a stack map of its bytes, up to what comes behind
them.
-/

namespace Pictogram

namespace Machine

open Pictogram.Class (Pool)

/-- A test changes the number of kinds as it changes the height of the stack. -/
theorem Test.length_retype?
    {test : Test}
    {stack next : List Kind}
    (retyped : test.retype? stack = some next) :
    (next.length : Int) = stack.length + test.change := by
  unfold retype? at retyped
  grind [change]

/-- An action changes the number of kinds as it changes the height of the stack. -/
theorem Action.length_retype?
    {pool : Pool}
    {action : Action}
    {stack next : List Kind}
    (retyped : action.retype? pool stack = some next) :
    (next.length : Int) = stack.length + action.change := by
  cases action with
  | branch test offset => exact Test.length_retype? retyped
  | constant index =>
      obtain ⟨datum, -, retyped⟩ := Option.bind_eq_some_iff.mp retyped
      obtain ⟨kind, -, retyped⟩ := Option.bind_eq_some_iff.mp retyped
      cases retyped
      simp [change]
  | _ =>
      unfold retype? at retyped
      grind [change]

end Machine

namespace Compile

open Pictogram.Class (Pool)
open Machine (Action Order Test Kind Routine StackMap)

/-- The kind of the values of a type. -/
def StaticType.kind (type : StaticType) : Kind := type.cell.kind

/-- The operands that are on the stack at an address. -/
abbrev Mark := Nat × List Kind

/-- A tree at an address turns a stack into another, with the given marks at its
instructions. -/
inductive Typed (pool : Pool) :
    Tree → Nat → List Kind → List Kind → List Mark → Prop
  | empty {address : Nat} {stack : List Kind} : Typed pool .empty address stack stack []
  | plain {order : Order} {action : Action} {address : Nat} {stack next : List Kind} :
      order.action? = some action →
      action.isStraight →
      action.retype? pool stack = some next →
      Typed pool (.plain order) address stack next [(address, stack)]
  | seq {first second : Tree} {address : Nat} {stack middle next : List Kind}
      {firstMarks secondMarks : List Mark} :
      Typed pool first address stack middle firstMarks →
      Typed pool second (address + first.size) middle next secondMarks →
      Typed pool (.seq first second) address stack next (firstMarks ++ secondMarks)
  | skip {test : Test} {body : Tree} {address : Nat} {stack next : List Kind}
      {marks : List Mark} :
      test ≠ .always →
      test.retype? stack = some next →
      Typed pool body (address + 3) next next marks →
      Typed pool (.skip test body) address stack next ((address, stack) :: marks)
  | choose {test : Test} {body rest : Tree} {address : Nat} {stack middle next : List Kind}
      {bodyMarks restMarks : List Mark} :
      test ≠ .always →
      test.retype? stack = some middle →
      Typed pool body (address + 3) middle next bodyMarks →
      Typed pool rest (address + (3 + body.size + 3)) middle next restMarks →
      Typed pool (.choose test body rest) address stack next
        ((address, stack) :: bodyMarks ++ (address + (3 + body.size), next) :: restMarks)
  | loop {head : Tree} {test : Test} {body : Tree} {address : Nat}
      {stack middle next : List Kind} {headMarks bodyMarks : List Mark} :
      Typed pool head address stack middle headMarks →
      test ≠ .always →
      test.retype? middle = some next →
      Typed pool body (address + (head.size + 3)) next stack bodyMarks →
      Typed pool (.loop head test body) address stack next
        (headMarks ++ (address + head.size, middle) :: bodyMarks ++
          [(address + (head.size + (3 + body.size)), stack)])

/-- A place is marked with a stack, or it is where a tree is left with it. -/
def Arrives
    (marks : List Mark)
    (last : Nat)
    (exit : List Kind)
    (place : Nat)
    (stack : List Kind) : Prop :=
  (place, stack) ∈ marks ∨ (place = last ∧ stack = exit)

/-- What arrives in a part arrives in the whole, if the whole goes on where the part ends. -/
theorem Arrives.through
    {inner outer : List Mark}
    {innerLast outerLast place : Nat}
    {innerExit outerExit stack : List Kind}
    (arrives : Arrives inner innerLast innerExit place stack)
    (within : inner ⊆ outer)
    (goesOn : Arrives outer outerLast outerExit innerLast innerExit) :
    Arrives outer outerLast outerExit place stack := by
  rcases arrives with marked | ⟨rfl, rfl⟩
  · exact .inl (within marked)
  · exact goesOn

/-- The instruction at a mark finds its operands and leads to marks, or to where the
tree is left. -/
def Flows
    (routine : Routine)
    (marks : List Mark)
    (last : Nat)
    (exit : List Kind)
    (mark : Mark) : Prop :=
  ∃ next targets, routine.Retypes mark.1 mark.2 next targets ∧
    ∀ target ∈ targets, ∃ place : Nat, target = place ∧ Arrives marks last exit place next

/-- What flows in a part flows in the whole, if the whole goes on where the part ends. -/
theorem Flows.through
    {routine : Routine}
    {inner outer : List Mark}
    {innerLast outerLast : Nat}
    {innerExit outerExit : List Kind}
    {mark : Mark}
    (flows : Flows routine inner innerLast innerExit mark)
    (within : inner ⊆ outer)
    (goesOn : Arrives outer outerLast outerExit innerLast innerExit) :
    Flows routine outer outerLast outerExit mark := by
  obtain ⟨next, targets, retypes, leads⟩ := flows
  refine ⟨next, targets, retypes, fun target present => ?_⟩
  obtain ⟨place, isPlace, arrives⟩ := leads target present
  exact ⟨place, isPlace, arrives.through within goesOn⟩

/-- A branch with a test, both of whose ways are known. -/
theorem Branches.flows
    {routine : Routine}
    {marks : List Mark}
    {last address target : Nat}
    {exit stack next : List Kind}
    {test : Test}
    (branches : Branches routine.code address test target)
    (retyped : test.retype? stack = some next)
    (falls : Arrives marks last exit (address + 3) next)
    (jumps : Arrives marks last exit target next) :
    Flows routine marks last exit (address, stack) := by
  refine ⟨next, _, ⟨_, _, branches, retyped, rfl⟩, fun place present => ?_⟩
  have either : place = (address : Int) + 3 ∨ place = target := by
    cases test <;> simp [Action.targets] at present <;> omega
  rcases either with rfl | rfl
  · exact ⟨address + 3, rfl, falls⟩
  · exact ⟨target, rfl, jumps⟩

/-- A branch that is always taken. -/
theorem Branches.flows_always
    {routine : Routine}
    {marks : List Mark}
    {last address target : Nat}
    {exit stack : List Kind}
    (branches : Branches routine.code address .always target)
    (jumps : Arrives marks last exit target stack) :
    Flows routine marks last exit (address, stack) := by
  refine ⟨stack, _, ⟨_, _, branches, rfl, rfl⟩, fun place present => ?_⟩
  simp only [Action.targets, List.mem_singleton] at present
  exact ⟨target, by omega, jumps⟩

namespace Typed

variable {pool : Pool} {tree : Tree} {address : Nat} {stack next : List Kind}
  {marks : List Mark}

/-- The height of the stack changes as stated. -/
theorem length_eq (typed : Typed pool tree address stack next marks) :
    (next.length : Int) = stack.length + tree.effect := by
  induction typed with
  | empty => simp [Tree.effect]
  | plain means straight retyped =>
      rw [Tree.effect, Order.change_eq means]
      exact Action.length_retype? retyped
  | seq _ _ firstLength secondLength =>
      rw [secondLength, firstLength, Tree.effect, Int.add_assoc]
  | skip _ retyped _ _ => exact Test.length_retype? retyped
  | choose _ retyped _ _ _ restLength =>
      rw [restLength, Test.length_retype? retyped, Tree.effect, Int.add_assoc]
  | loop _ _ retyped _ headLength _ =>
      rw [Test.length_retype? retyped, headLength, Tree.effect, Int.add_assoc]

/-- A typed tree is balanced. -/
theorem balanced (typed : Typed pool tree address stack next marks) : tree.Balanced := by
  induction typed with
  | empty | plain => trivial
  | seq _ _ firstBalanced secondBalanced => exact ⟨firstBalanced, secondBalanced⟩
  | skip _ _ bodyTyped bodyBalanced =>
      have length := bodyTyped.length_eq
      exact ⟨bodyBalanced, by omega⟩
  | choose _ _ bodyTyped restTyped bodyBalanced restBalanced =>
      have bodyLength := bodyTyped.length_eq
      have restLength := restTyped.length_eq
      exact ⟨bodyBalanced, restBalanced, by omega⟩
  | loop headTyped _ retyped bodyTyped headBalanced bodyBalanced =>
      have headLength := headTyped.length_eq
      have tested := Test.length_retype? retyped
      have bodyLength := bodyTyped.length_eq
      exact ⟨headBalanced, bodyBalanced, by omega⟩

/-- The marks are at the instructions, in order. -/
theorem map_fst (typed : Typed pool tree address stack next marks) :
    marks.map Prod.fst = (Order.place address tree.orders).map (·.address) := by
  have size (tree : Tree) : (Order.listBytes tree.orders).length = tree.size := tree.length_bytes
  have branchSize (test : Test) (offset : Int) : (Order.branch test offset).size = 3 :=
    Order.length_bytes_branch test offset
  induction typed with
  | empty => rfl
  | plain _ _ _ => rfl
  | seq _ _ firstMap secondMap =>
      simp [Tree.orders, Order.place_append, firstMap, secondMap, size]
  | skip _ _ _ bodyMap =>
      simp [Tree.orders, Order.place, bodyMap, branchSize, Order.standing]
  | choose _ _ _ _ bodyMap restMap =>
      simp [Tree.orders, Order.place, Order.place_append, bodyMap, restMap, branchSize, size,
        Order.standing, Nat.add_assoc]
  | loop _ _ _ _ headMap bodyMap =>
      simp [Tree.orders, Order.place, Order.place_append, headMap, bodyMap, branchSize, size,
        Order.standing, Nat.add_assoc]

/-- A tree is entered at its first instruction, if it has any. -/
theorem entry (typed : Typed pool tree address stack next marks) :
    Arrives marks (address + tree.size) next address stack := by
  induction typed with
  | empty => exact .inr ⟨rfl, rfl⟩
  | plain _ _ _ => exact .inl (by simp)
  | seq _ _ firstEntry secondEntry =>
      refine firstEntry.through (by simp) ?_
      rw [Tree.size, ← Nat.add_assoc]
      exact secondEntry.through (by simp) (.inr ⟨rfl, rfl⟩)
  | skip _ _ _ _ => exact .inl (by simp)
  | choose _ _ _ _ _ _ => exact .inl (by simp)
  | loop _ _ _ _ headEntry _ => exact headEntry.through (by simp) (.inl (by simp))

/-- All instructions of a tree find their operands, and where they lead the operands
are as marked. -/
theorem flows
    {routine : Routine}
    (typed : Typed routine.pool tree address stack next marks)
    (fits : tree.Fits)
    (stands : Stands routine.code address tree.bytes) :
    ∀ mark ∈ marks, Flows routine marks (address + tree.size) next mark := by
  induction typed with
  | empty => simp
  | @plain order action address stack next means straight retyped =>
      simp only [List.mem_singleton, forall_eq]
      rw [Tree.bytes_plain] at stands
      refine ⟨next, _, ⟨action, order.size, stands.read? means, retyped, rfl⟩, ?_⟩
      intro target present
      rw [Action.targets_of_isStraight straight, List.mem_singleton] at present
      exact ⟨address + order.size, by omega, .inr ⟨rfl, rfl⟩⟩
  | @seq first second address stack middle next firstMarks secondMarks _ secondTyped firstFlows
      secondFlows =>
      obtain ⟨firstStands, secondStands⟩ := Tree.stands_seq.mp stands
      rw [Tree.size, ← Nat.add_assoc]
      intro mark present
      rcases List.mem_append.mp present with inFirst | inSecond
      · exact (firstFlows fits.1 firstStands mark inFirst).through (by simp)
          (secondTyped.entry.through (by simp) (.inr ⟨rfl, rfl⟩))
      · exact (secondFlows fits.2 secondStands mark inSecond).through (by simp)
          (.inr ⟨rfl, rfl⟩)
  | @skip test body address stack next marks _ retyped bodyTyped bodyFlows =>
      obtain ⟨branches, bodyStands⟩ := Tree.stands_skip fits stands
      have last : address + 3 + body.size = address + (Tree.skip test body).size := by
        rw [Tree.size, Nat.add_assoc]
      intro mark present
      rcases List.mem_cons.mp present with rfl | inBody
      · refine branches.flows retyped ?_ (.inr ⟨rfl, rfl⟩)
        exact bodyTyped.entry.through (by simp) (.inr ⟨last, rfl⟩)
      · exact (bodyFlows fits.1 bodyStands mark inBody).through (by simp) (.inr ⟨last, rfl⟩)
  | @choose test body rest address stack middle next bodyMarks restMarks _ retyped
      bodyTyped restTyped bodyFlows restFlows =>
      obtain ⟨branches, bodyStands, goesOn, restStands⟩ := Tree.stands_choose fits stands
      have bodyLast : address + 3 + body.size = address + (3 + body.size) := by omega
      have last : address + (3 + body.size + 3) + rest.size =
          address + (Tree.choose test body rest).size := by
        simp only [Tree.size]
        omega
      intro mark present
      simp only [List.cons_append, List.mem_cons, List.mem_append] at present
      rcases present with rfl | inBody | rfl | inRest
      · refine branches.flows retyped ?_ ?_
        · exact bodyTyped.entry.through (by simp) (.inl (by simp [bodyLast]))
        · exact restTyped.entry.through (fun _ marked => by simp [marked]) (.inr ⟨last, rfl⟩)
      · exact (bodyFlows fits.1 bodyStands mark inBody).through (by simp)
          (.inl (by simp [bodyLast]))
      · exact goesOn.flows_always (.inr ⟨rfl, rfl⟩)
      · exact (restFlows fits.2.1 restStands mark inRest).through
          (fun _ marked => by simp [marked]) (.inr ⟨last, rfl⟩)
  | @loop head test body address stack middle next headMarks bodyMarks headTyped _ retyped
      bodyTyped headFlows bodyFlows =>
      obtain ⟨headStands, branches, bodyStands, goesBack⟩ := Tree.stands_loop fits stands
      have bodyFirst : address + head.size + 3 = address + (head.size + 3) := by omega
      have bodyLast : address + (head.size + 3) + body.size =
          address + (head.size + (3 + body.size)) := by omega
      have last : address + (head.size + (3 + body.size + 3)) =
          address + (Tree.loop head test body).size := rfl
      intro mark present
      simp only [List.append_assoc, List.cons_append, List.mem_append, List.mem_cons,
        List.not_mem_nil, or_false] at present
      rcases present with inHead | rfl | inBody | rfl
      · exact (headFlows fits.1 headStands mark inHead).through (by simp) (.inl (by simp))
      · refine branches.flows retyped ?_ (.inr ⟨last, rfl⟩)
        rw [bodyFirst]
        exact bodyTyped.entry.through (fun _ marked => by simp [marked]) (.inl (by simp [bodyLast]))
      · exact (bodyFlows fits.2.1 bodyStands mark inBody).through
          (fun _ marked => by simp [marked]) (.inl (by simp [bodyLast]))
      · exact goesBack.flows_always (headTyped.entry.through (by simp) (.inl (by simp)))

section Forced

variable {routine : Routine} {stackAt : Nat → Option (List Kind)}
  (flow : ∀ address stack, stackAt address = some stack →
    ∃ next targets, routine.Retypes address stack next targets ∧
      ∀ target ∈ targets, ∃ place : Nat, target = place ∧ stackAt place = some next)

include flow

/-- A stack map has no choice behind an instruction that goes straight on. -/
theorem forced_plain
    {order : Order}
    {action : Action}
    (means : order.action? = some action)
    (straight : action.isStraight)
    (retyped : action.retype? routine.pool stack = some next)
    (stands : Stands routine.code address order.bytes)
    (entered : stackAt address = some stack) :
    stackAt (address + order.size) = some next := by
  obtain ⟨after, targets, ⟨read, size, isRead, retypes, rfl⟩, leads⟩ :=
    flow address stack entered
  rw [stands.read? means] at isRead
  obtain ⟨rfl, rfl⟩ := Prod.mk.inj (Option.some.inj isRead)
  rw [retyped] at retypes
  obtain rfl := Option.some.inj retypes
  rw [Action.targets_of_isStraight straight] at leads
  obtain ⟨place, isPlace, found⟩ := leads _ (List.mem_singleton.mpr rfl)
  obtain rfl : place = address + order.size := by omega
  exact found

/-- A stack map has no choice at the target of a branch, or behind one that may not be taken. -/
theorem forced_branch
    {test : Test}
    {target : Nat}
    (branches : Branches routine.code address test target)
    (retyped : test.retype? stack = some next)
    (entered : stackAt address = some stack) :
    stackAt target = some next ∧ (test ≠ .always → stackAt (address + 3) = some next) := by
  obtain ⟨after, targets, ⟨read, size, isRead, retypes, rfl⟩, leads⟩ :=
    flow address stack entered
  rw [branches] at isRead
  obtain ⟨rfl, rfl⟩ := Prod.mk.inj (Option.some.inj isRead)
  change test.retype? stack = some after at retypes
  rw [retyped] at retypes
  obtain rfl := Option.some.inj retypes
  constructor
  · obtain ⟨place, isPlace, found⟩ := leads ((address : Int) + ((target : Int) - address)) (by
      cases test <;> simp [Action.targets])
    obtain rfl : place = target := by omega
    exact found
  · intro conditional
    obtain ⟨place, isPlace, found⟩ := leads ((address : Int) + 3) (by
      cases test <;> simp_all [Action.targets])
    obtain rfl : place = address + 3 := by omega
    exact found

/-- What stands on the stack where a tree is entered forces what stands on it at all
of its instructions and where it is left. -/
theorem forced
    (typed : Typed routine.pool tree address stack next marks)
    (fits : tree.Fits)
    (stands : Stands routine.code address tree.bytes)
    (entered : stackAt address = some stack) :
    (∀ mark ∈ marks, stackAt mark.1 = some mark.2) ∧
      stackAt (address + tree.size) = some next := by
  induction typed with
  | empty => exact ⟨by simp, entered⟩
  | plain means straight retyped =>
      rw [Tree.bytes_plain] at stands
      refine ⟨?_, forced_plain flow means straight retyped stands entered⟩
      simpa using entered
  | seq _ _ firstForced secondForced =>
      obtain ⟨firstStands, secondStands⟩ := Tree.stands_seq.mp stands
      obtain ⟨firstMarks, middle⟩ := firstForced fits.1 firstStands entered
      obtain ⟨secondMarks, last⟩ := secondForced fits.2 secondStands middle
      rw [Tree.size, ← Nat.add_assoc]
      exact ⟨List.forall_mem_append.mpr ⟨firstMarks, secondMarks⟩, last⟩
  | skip conditional retyped _ bodyForced =>
      obtain ⟨branches, bodyStands⟩ := Tree.stands_skip fits stands
      obtain ⟨jumps, falls⟩ := forced_branch flow branches retyped entered
      obtain ⟨bodyMarks, -⟩ := bodyForced fits.1 bodyStands (falls conditional)
      exact ⟨List.forall_mem_cons.mpr ⟨entered, bodyMarks⟩, jumps⟩
  | @choose _ body _ _ _ _ _ _ _ conditional retyped _ _ bodyForced restForced =>
      obtain ⟨branches, bodyStands, goesOn, restStands⟩ := Tree.stands_choose fits stands
      obtain ⟨jumps, falls⟩ := forced_branch flow branches retyped entered
      obtain ⟨bodyMarks, bodyLast⟩ := bodyForced fits.1 bodyStands (falls conditional)
      obtain ⟨restMarks, -⟩ := restForced fits.2.1 restStands jumps
      rw [Nat.add_assoc] at bodyLast
      obtain ⟨last, -⟩ := forced_branch flow goesOn rfl bodyLast
      refine ⟨List.forall_mem_append.mpr ⟨List.forall_mem_cons.mpr ⟨entered, bodyMarks⟩,
        List.forall_mem_cons.mpr ⟨bodyLast, restMarks⟩⟩, last⟩
  | loop _ conditional retyped _ headForced bodyForced =>
      obtain ⟨headStands, branches, bodyStands, goesBack⟩ := Tree.stands_loop fits stands
      obtain ⟨headMarks, headLast⟩ := headForced fits.1 headStands entered
      obtain ⟨jumps, falls⟩ := forced_branch flow branches retyped headLast
      obtain ⟨bodyMarks, bodyLast⟩ := bodyForced fits.2.1 bodyStands (falls conditional)
      rw [Nat.add_assoc, Nat.add_assoc] at bodyLast
      refine ⟨List.forall_mem_append.mpr ⟨List.forall_mem_append.mpr ⟨headMarks,
        List.forall_mem_cons.mpr ⟨headLast, bodyMarks⟩⟩, ?_⟩, jumps⟩
      simpa using bodyLast

end Forced

/-! ## The height of the stack -/

/-- The stack gets no higher than stated. -/
theorem length_le_peak (typed : Typed pool tree address stack next marks) :
    ∀ mark ∈ marks, (mark.2.length : Int) ≤ stack.length + tree.peak := by
  induction typed with
  | empty => simp
  | plain _ _ _ =>
      simp only [List.mem_singleton, forall_eq, Tree.peak]
      omega
  | seq firstTyped _ firstLe secondLe =>
      have middle := firstTyped.length_eq
      simp only [Tree.peak]
      intro mark present
      rcases List.mem_append.mp present with inFirst | inSecond
      · have := firstLe mark inFirst
        omega
      · have := secondLe mark inSecond
        omega
  | skip _ retyped _ bodyLe =>
      have tested := Test.length_retype? retyped
      simp only [Tree.peak]
      intro mark present
      rcases List.mem_cons.mp present with rfl | inBody
      · dsimp only
        omega
      · have := bodyLe mark inBody
        omega
  | @choose _ body _ _ _ _ _ _ _ _ retyped bodyTyped _ bodyLe restLe =>
      have tested := Test.length_retype? retyped
      have bodied := bodyTyped.length_eq
      have bodyPeak := body.effect_le_peak
      simp only [Tree.peak, List.cons_append, List.mem_cons, List.mem_append]
      rintro mark (rfl | inBody | rfl | inRest)
      · dsimp only
        omega
      · have := bodyLe mark inBody
        omega
      · dsimp only
        omega
      · have := restLe mark inRest
        omega
  | @loop head _ body _ _ _ _ _ _ headTyped _ retyped bodyTyped headLe bodyLe =>
      have headed := headTyped.length_eq
      have tested := Test.length_retype? retyped
      have headPeak := head.effect_le_peak
      have headNonneg := head.peak_nonneg
      simp only [Tree.peak, List.append_assoc, List.cons_append, List.mem_append, List.mem_cons,
        List.not_mem_nil, or_false]
      rintro mark (inHead | rfl | inBody | rfl)
      · have := headLe mark inHead
        omega
      · dsimp only
        omega
      · have := bodyLe mark inBody
        omega
      · dsimp only
        omega

/-- On some way from a marked instruction to another the stack has a height. -/
def Climbs (routine : Routine) (marks : List Mark) (height : Int) : Prop :=
  ∃ mark ∈ marks, ∃ next targets, routine.Retypes mark.1 mark.2 next targets ∧ targets ≠ [] ∧
    (next.length : Int) = height

/-- A height that is met in a part is met in the whole. -/
theorem Climbs.within
    {routine : Routine}
    {inner outer : List Mark}
    {height other : Int}
    (climbs : Climbs routine inner height)
    (within : inner ⊆ outer)
    (same : height = other) :
    Climbs routine outer other := by
  obtain ⟨mark, present, edge⟩ := climbs
  exact ⟨mark, within present, same ▸ edge⟩

/-- The stack gets as high as stated, unless it gets no higher than at the
beginning. -/
theorem climbs_peak
    {routine : Routine}
    (typed : Typed routine.pool tree address stack next marks)
    (stands : Stands routine.code address tree.bytes)
    (fits : tree.Fits) :
    tree.peak = 0 ∨ Climbs routine marks (stack.length + tree.peak) := by
  induction typed with
  | empty => exact .inl rfl
  | @plain order action address stack next means straight retyped =>
      rw [Tree.bytes_plain] at stands
      have change := Action.length_retype? retyped
      rw [← Order.change_eq means] at change
      simp only [Tree.peak]
      rcases Int.lt_or_le 0 order.change with higher | lower
      · refine .inr ⟨_, List.mem_singleton.mpr rfl, next, _,
          ⟨action, order.size, stands.read? means, retyped, rfl⟩, ?_, ?_⟩
        · rw [Action.targets_of_isStraight straight]
          simp
        · omega
      · exact .inl (by omega)
  | @seq first second _ _ _ _ _ _ firstTyped _ firstClimbs secondClimbs =>
      obtain ⟨firstStands, secondStands⟩ := Tree.stands_seq.mp stands
      have middle := firstTyped.length_eq
      have firstPeak := first.effect_le_peak
      simp only [Tree.peak]
      rcases Int.lt_or_le first.peak (first.effect + second.peak) with later | earlier
      · rcases secondClimbs secondStands fits.2 with flat | climbs
        · omega
        · exact .inr (climbs.within (List.subset_append_right _ _) (by omega))
      · rcases firstClimbs firstStands fits.1 with flat | climbs
        · exact .inl (by omega)
        · exact .inr (climbs.within (List.subset_append_left _ _) (by omega))
  | @skip test body _ _ _ _ _ retyped _ bodyClimbs =>
      have tested := Test.length_retype? retyped
      have low := test.change_nonpos
      simp only [Tree.peak]
      rcases Int.lt_or_le 0 (test.change + body.peak) with higher | lower
      · rcases bodyClimbs (Tree.stands_skip fits stands).2 fits.1 with flat | climbs
        · omega
        · exact .inr (climbs.within (List.subset_cons_self _ _) (by omega))
      · exact .inl (by omega)
  | @choose test body rest _ _ _ _ _ _ _ retyped _ _ bodyClimbs restClimbs =>
      obtain ⟨-, bodyStands, -, restStands⟩ := Tree.stands_choose fits stands
      have tested := Test.length_retype? retyped
      have low := test.change_nonpos
      simp only [Tree.peak]
      rcases Int.lt_or_le 0 (test.change + max body.peak rest.peak) with higher | lower
      · rcases Int.lt_or_le body.peak rest.peak with later | earlier
        · rcases restClimbs restStands fits.2.1 with flat | climbs
          · omega
          · exact .inr (climbs.within (fun _ marked => by simp [marked]) (by omega))
        · rcases bodyClimbs bodyStands fits.1 with flat | climbs
          · omega
          · exact .inr (climbs.within (fun _ marked => by simp [marked]) (by omega))
      · exact .inl (by omega)
  | @loop head test body _ _ _ _ _ _ headTyped _ retyped _ headClimbs bodyClimbs =>
      obtain ⟨headStands, -, bodyStands, -⟩ := Tree.stands_loop fits stands
      have headed := headTyped.length_eq
      have tested := Test.length_retype? retyped
      have headPeak := head.effect_le_peak
      have low := test.change_nonpos
      simp only [Tree.peak]
      rcases Int.lt_or_le head.peak (head.effect + test.change + body.peak) with later | earlier
      · rcases bodyClimbs bodyStands fits.2.1 with flat | climbs
        · omega
        · exact .inr (climbs.within (fun _ marked => by simp [marked]) (by omega))
      · rcases headClimbs headStands fits.1 with flat | climbs
        · exact .inl (by omega)
        · exact .inr (climbs.within (fun _ marked => by simp [marked]) (by omega))

end Typed

/-! ## The code of programs -/

section Programs

variable {pool : Pool} {slots : Slots} {tree : Tree}

/-- An instruction that pushes a datum puts its kind on the stack. -/
theorem typed_pushes
    {order : Order}
    {datum : Machine.Datum}
    {kind : Kind}
    (pushes : order.Pushes pool datum)
    (ofKind : datum.kind? = some kind)
    (address : Nat)
    (stack : List Kind) :
    Typed pool (.plain order) address stack (kind :: stack) [(address, stack)] := by
  cases pushes with
  | operand means =>
      obtain rfl := Option.some.inj ofKind
      exact .plain means rfl rfl
  | constant means stands =>
      refine .plain means rfl ?_
      simp [Action.retype?, stands, ofKind]

theorem typed_load (type : StaticType) (slot : UInt8) (address : Nat) (stack : List Kind) :
    Typed pool (.plain (.load type.cell slot)) address stack (type.kind :: stack)
      [(address, stack)] :=
  .plain (Order.action?_load _ _) rfl rfl

theorem typed_store (type : StaticType) (slot : UInt8) (address : Nat) (stack : List Kind) :
    Typed pool (.plain (.store type.cell slot)) address (type.kind :: stack) stack
      [(address, type.kind :: stack)] := by
  refine .plain (Order.action?_store _ _) rfl ?_
  simp [Action.retype?, StaticType.kind]

theorem typed_comparison (relation : Machine.Relation) (address : Nat) (stack : List Kind) :
    ∃ marks, Typed pool (.comparison relation) address (.int :: .int :: stack) (.int :: stack)
      marks :=
  ⟨_, .choose (by simp) rfl (.plain rfl rfl rfl) (.plain rfl rfl rfl)⟩

/-- The code of an operator turns the kinds of its operands into that of its result. -/
theorem OperationTree.typed
    {operator : BinaryOperator}
    {left right type : StaticType}
    (code : OperationTree operator left right type tree)
    (address : Nat)
    (stack : List Kind) :
    ∃ marks, Typed pool tree address (right.kind :: left.kind :: stack) (type.kind :: stack)
      marks := by
  cases code with
  | integer _ => exact ⟨_, .plain rfl rfl rfl⟩
  | ordering _ => exact typed_comparison _ address stack
  | boolean _ => exact ⟨_, .plain rfl rfl rfl⟩
  | equality notText =>
      cases left with
      | string => exact absurd rfl notText
      | int | boolean => exact typed_comparison _ address stack

/-- The code of an expression finds its operands and leaves its value. -/
theorem ExpressionTree.typed
    {e : Expression}
    {type : StaticType}
    (code : ExpressionTree pool slots e type tree)
    (address : Nat)
    (stack : List Kind) :
    ∃ marks, Typed pool tree address stack (type.kind :: stack) marks := by
  induction code generalizing address stack with
  | number _ pushes => exact ⟨_, typed_pushes pushes rfl address stack⟩
  | string pushes => exact ⟨_, typed_pushes pushes rfl address stack⟩
  | boolean pushes => exact ⟨_, typed_pushes pushes rfl address stack⟩
  | name _ => exact ⟨_, typed_load _ _ address stack⟩
  | negate _ argumentTyped =>
      obtain ⟨_, typed⟩ := argumentTyped address stack
      exact ⟨_, .seq typed (.plain rfl rfl rfl)⟩
  | binary _ _ operation leftTyped rightTyped =>
      obtain ⟨_, leftTyped⟩ := leftTyped address stack
      obtain ⟨_, rightTyped⟩ := rightTyped _ _
      obtain ⟨_, typed⟩ := operation.typed _ _
      exact ⟨_, .seq leftTyped (.seq rightTyped typed)⟩
  | assign _ _ valueTyped =>
      obtain ⟨_, typed⟩ := valueTyped address stack
      exact ⟨_, .seq typed (.seq (.plain rfl rfl rfl) (typed_store _ _ _ _))⟩

/-- Every type but that of texts is kept as an integer. -/
theorem StaticType.kind_eq_int {type : StaticType} (notText : type ≠ .string) :
    type.kind = .int := by
  cases type with
  | string => exact absurd rfl notText
  | int | boolean => rfl

/-- The method that prints a line takes the kind of the type in its descriptor. -/
theorem argumentKind?_printLine (type : StaticType) :
    Machine.argumentKind? (Machine.printLine s!"({type.descriptor})V") = some type.kind := by
  cases type <;> decide

/-- The code of statements finds its operands and leaves the stack as it was. -/
theorem PartTree.typed
    {before after : Slots}
    {part : Part}
    (code : PartTree pool before part after tree)
    (address : Nat)
    (stack : List Kind) :
    ∃ marks, Typed pool tree address stack stack marks := by
  induction code generalizing address stack with
  | print stream argument method =>
      obtain ⟨_, typed⟩ := argument.typed _ (.stream :: stack)
      have called := argumentKind?_printLine
      refine ⟨_, .seq (.plain (Order.action?_field _) rfl ?_)
        (.seq typed (.plain (Order.action?_call _) rfl ?_))⟩
      · simp [Action.retype?, stream]
      · simp [Action.retype?, method, called]
  | declare value _ =>
      obtain ⟨_, typed⟩ := value.typed address stack
      exact ⟨_, .seq typed (typed_store _ _ _ _)⟩
  | declareZero _ => exact ⟨_, .seq (.plain rfl rfl rfl) (typed_store .int _ _ _)⟩
  | onlyIf test notText _ _ bodyTyped =>
      obtain ⟨_, testTyped⟩ := test.typed address stack
      rw [StaticType.kind_eq_int notText] at testTyped
      choose bodyMarks bodyTyped using bodyTyped
      exact ⟨_, .seq testTyped (.skip (by simp) rfl (bodyTyped _ stack))⟩
  | ifElse test notText _ _ _ bodyTyped restTyped =>
      obtain ⟨_, testTyped⟩ := test.typed address stack
      rw [StaticType.kind_eq_int notText] at testTyped
      choose bodyMarks bodyTyped using bodyTyped
      choose restMarks restTyped using restTyped
      exact ⟨_, .seq testTyped (.choose (by simp) rfl (bodyTyped _ stack) (restTyped _ stack))⟩
  | count start stop _ _ _ bodyTyped =>
      choose startMarks startTyped using start.typed
      choose stopMarks stopTyped using stop.typed
      choose bodyMarks bodyTyped using bodyTyped
      exact ⟨_, .seq
        (.seq (startTyped address stack) (.seq (stopTyped _ _)
          (.seq (typed_store .int _ _ _) (typed_store .int _ _ _))))
        (.loop (.seq (typed_load .int _ _ stack) (typed_load .int _ _ _)) (by simp) rfl
          (.seq (bodyTyped _ stack) (.plain (Order.action?_increment _) rfl rfl)))⟩
  | loop test notText _ bodyTyped =>
      obtain ⟨_, testTyped⟩ := test.typed address stack
      rw [StaticType.kind_eq_int notText] at testTyped
      choose bodyMarks bodyTyped using bodyTyped
      exact ⟨_, .loop testTyped (by simp) rfl (bodyTyped _ stack)⟩
  | assign _ value =>
      obtain ⟨_, typed⟩ := value.typed address stack
      exact ⟨_, .seq typed (typed_store _ _ _ _)⟩
  | drop value =>
      obtain ⟨_, typed⟩ := value.typed address stack
      exact ⟨_, .seq typed (.plain rfl rfl rfl)⟩
  | nil => exact ⟨_, .empty⟩
  | cons _ _ firstTyped restTyped =>
      obtain ⟨_, firstTyped⟩ := firstTyped address stack
      obtain ⟨_, restTyped⟩ := restTyped _ stack
      exact ⟨_, .seq firstTyped restTyped⟩

end Programs
end Compile
end Pictogram
