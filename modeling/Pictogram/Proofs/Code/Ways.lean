import Pictogram.Proofs.Code.Emit
import Pictogram.Proofs.Machine.Flow

/-!
# The ways through a tree

Some instructions are barred: a way may end at one but not go on from it.  Which
instructions of a tree are reached so, and whether the tree is passed, is said by
the structure of the tree; the walks along its instructions reach just the same.
-/

namespace Pictogram

namespace Machine

/-- A branch whose offset has 16 bits has its target as far as the offset says. -/
theorem Order.target?_branch
    (test : Test)
    {offset : Int}
    {address target : Nat}
    (least : -32768 ≤ offset)
    (greatest : offset ≤ 32767)
    (leads : (target : Int) = address + offset) :
    ((Order.branch test offset).standing address).target? = some target := by
  have isBranch : (Order.branch test offset).opcode.isBranch = true := by cases test <;> rfl
  have number : Bytes.toInt (Order.branch test offset).operands = offset :=
    Bytes.toInt_signed_two least greatest
  rw [Instruction.target?, opcode_standing, if_pos isBranch, operands_standing, number,
    address_standing, ← leads]

/-- A branch leads to its target, and on behind it unless it is always taken. -/
theorem Order.leadsTo_branch
    (test : Test)
    (target : Nat)
    {offset : Int}
    {address next : Nat}
    (least : -32768 ≤ offset)
    (greatest : offset ≤ 32767)
    (leads : (target : Int) = address + offset) :
    ((Order.branch test offset).standing address).LeadsTo next ↔
      (test ≠ .always ∧ next = address + 3) ∨ next = target := by
  have falls : (Order.branch test offset).opcode.fallsThrough = true ↔ test ≠ .always := by
    cases test <;> simp [Order.branch, Test.opcode, Opcode.fallsThrough]
  rw [Instruction.LeadsTo, Order.target?_branch test least greatest leads, opcode_standing, falls,
    address_standing, size_standing, size, length_bytes_branch, Option.some_inj, eq_comm (a := next)
    (b := target)]

/-- An instruction after which the machine goes on with the one behind it. -/
def Order.IsStraight (order : Order) : Prop :=
  order.opcode.fallsThrough = true ∧ order.opcode.isBranch = false

/-- An instruction that goes straight on leads to the one behind it only. -/
theorem Order.leadsTo_straight
    {order : Order}
    {address next : Nat}
    (straight : order.IsStraight) :
    (order.standing address).LeadsTo next ↔ next = address + order.size := by
  obtain ⟨falls, noBranch⟩ := straight
  simp [Instruction.LeadsTo, Instruction.target?, falls, noBranch]

end Machine

namespace Compile

open Machine (Order Opcode Test Instruction WalksTo decode)

namespace Tree

/-- The instructions of a tree at an address. -/
def instructions (tree : Tree) (address : Nat) : List Instruction :=
  Order.place address tree.orders

section Instructions

variable (address : Nat)

/-- What follows the instructions of a tree is placed behind its bytes. -/
theorem place_append_orders (tree : Tree) (rest : List Order) :
    Order.place address (tree.orders ++ rest) =
      tree.instructions address ++ Order.place (address + tree.size) rest := by
  have size : (Order.listBytes tree.orders).length = tree.size := tree.length_bytes
  rw [Order.place_append, size, instructions]

theorem place_branch (test : Test) (offset : Int) (rest : List Order) :
    Order.place address (.branch test offset :: rest) =
      (Order.branch test offset).standing address :: Order.place (address + 3) rest := by
  rw [Order.place, Order.size, Order.length_bytes_branch]

@[simp] theorem instructions_empty : Tree.empty.instructions address = [] := rfl

@[simp] theorem instructions_plain (order : Order) :
    (Tree.plain order).instructions address = [order.standing address] := rfl

@[simp] theorem instructions_seq (first second : Tree) :
    (Tree.seq first second).instructions address =
      first.instructions address ++ second.instructions (address + first.size) := by
  rw [instructions, orders, place_append_orders]
  rfl

@[simp] theorem instructions_skip (test : Test) (body : Tree) :
    (Tree.skip test body).instructions address =
      (Order.branch test (3 + body.size)).standing address :: body.instructions (address + 3) := by
  rw [instructions, orders, place_branch]
  rfl

@[simp] theorem instructions_choose (test : Test) (body rest : Tree) :
    (Tree.choose test body rest).instructions address =
      (Order.branch test (3 + body.size + 3)).standing address ::
        (body.instructions (address + 3) ++
          (Order.branch .always (3 + rest.size)).standing (address + (3 + body.size)) ::
            rest.instructions (address + (3 + body.size + 3))) := by
  rw [instructions, orders, List.cons_append, place_branch, place_append_orders, place_branch]
  simp only [Nat.add_assoc]
  rfl

@[simp] theorem instructions_loop (head : Tree) (test : Test) (body : Tree) :
    (Tree.loop head test body).instructions address =
      head.instructions address ++
        (Order.branch test (3 + body.size + 3)).standing (address + head.size) ::
          (body.instructions (address + (head.size + 3)) ++
            [(Order.branch .always (-(head.size + (3 + body.size)))).standing
              (address + (head.size + (3 + body.size)))]) := by
  rw [instructions, orders, List.append_assoc, place_append_orders, List.cons_append,
    place_branch, place_append_orders, place_branch]
  simp only [Nat.add_assoc]
  rfl

end Instructions

/-- The instructions of a tree are placed before its end. -/
theorem address_lt
    {tree : Tree}
    {address : Nat}
    {instruction : Instruction}
    (present : instruction ∈ tree.instructions address) :
    instruction.address < address + tree.size := by
  rw [← length_bytes]
  exact Order.address_lt present

/-- Only branches lead anywhere but on, and only branches that close a part always do. -/
def Orderly : Tree → Prop
  | .empty => True
  | .plain order => order.IsStraight
  | .seq first second => first.Orderly ∧ second.Orderly
  | .skip test body => test ≠ .always ∧ body.Orderly
  | .choose test body rest => test ≠ .always ∧ body.Orderly ∧ rest.Orderly
  | .loop head test body => head.Orderly ∧ test ≠ .always ∧ body.Orderly

section Ways

variable (barred : Instruction → Bool)

/-- There is a way through the tree. -/
def Passes : Tree → Nat → Prop
  | .empty, _ => True
  | .plain order, address => barred (order.standing address) = false
  | .seq first second, address =>
    first.Passes address ∧ second.Passes (address + first.size)
  | .skip _ _, _ => True
  | .choose _ body rest, address =>
    body.Passes (address + 3) ∨ rest.Passes (address + (3 + body.size + 3))
  | .loop head _ _, address => head.Passes address

/-- There is a way from the beginning of the tree to an instruction. -/
def Reaches : Tree → Nat → Instruction → Prop
  | .empty, _, _ => False
  | .plain order, address, instruction => instruction = order.standing address
  | .seq first second, address, instruction =>
    first.Reaches address instruction ∨
      (first.Passes barred address ∧ second.Reaches (address + first.size) instruction)
  | .skip test body, address, instruction =>
    instruction = (Order.branch test (3 + body.size)).standing address ∨
      body.Reaches (address + 3) instruction
  | .choose test body rest, address, instruction =>
    instruction = (Order.branch test (3 + body.size + 3)).standing address ∨
      body.Reaches (address + 3) instruction ∨
      (body.Passes barred (address + 3) ∧
        instruction =
          (Order.branch .always (3 + rest.size)).standing (address + (3 + body.size))) ∨
      rest.Reaches (address + (3 + body.size + 3)) instruction
  | .loop head test body, address, instruction =>
    head.Reaches address instruction ∨
      (head.Passes barred address ∧
        (instruction =
            (Order.branch test (3 + body.size + 3)).standing (address + head.size) ∨
          body.Reaches (address + (head.size + 3)) instruction ∨
          (body.Passes barred (address + (head.size + 3)) ∧
            instruction = (Order.branch .always (-(head.size + (3 + body.size)))).standing
              (address + (head.size + (3 + body.size))))))

/-- A place is that of an instruction reached, or the end of a tree that is passed. -/
def Arrives (tree : Tree) (address place : Nat) : Prop :=
  (∃ instruction, tree.Reaches barred address instruction ∧ instruction.address = place) ∨
    (tree.Passes barred address ∧ place = address + tree.size)

end Ways

variable {barred : Instruction → Bool}

/-- What is reached in a tree is an instruction of it. -/
theorem Reaches.mem_instructions
    {tree : Tree}
    {address : Nat}
    {instruction : Instruction}
    (reaches : tree.Reaches barred address instruction) :
    instruction ∈ tree.instructions address := by
  induction tree generalizing address with
  | empty => exact reaches.elim
  | plain order => simpa [Reaches] using reaches
  | seq first second firstHypothesis secondHypothesis =>
      rw [instructions_seq, List.mem_append]
      exact reaches.imp firstHypothesis fun ⟨_, inSecond⟩ => secondHypothesis inSecond
  | skip test body bodyHypothesis =>
      rw [instructions_skip, List.mem_cons]
      exact reaches.imp id bodyHypothesis
  | choose test body rest bodyHypothesis restHypothesis =>
      rw [instructions_choose, List.mem_cons, List.mem_append, List.mem_cons]
      exact reaches.imp id (Or.imp bodyHypothesis (Or.imp And.right restHypothesis))
  | loop head test body headHypothesis bodyHypothesis =>
      rw [instructions_loop, List.mem_append, List.mem_cons, List.mem_append,
        List.mem_singleton]
      exact reaches.imp headHypothesis fun ⟨_, inside⟩ =>
        inside.imp id (Or.imp bodyHypothesis And.right)

/-- If nothing is barred, every tree is passed. -/
theorem passes_of_free
    (free : ∀ instruction, barred instruction = false)
    (tree : Tree)
    (address : Nat) :
    tree.Passes barred address := by
  induction tree generalizing address with
  | empty | skip _ _ _ => trivial
  | plain order => exact free _
  | seq first second firstHypothesis secondHypothesis =>
      exact ⟨firstHypothesis _, secondHypothesis _⟩
  | choose _ body rest bodyHypothesis _ => exact .inl (bodyHypothesis _)
  | loop head _ _ headHypothesis _ => exact headHypothesis _

/-- If nothing is barred, every instruction is reached. -/
theorem reaches_of_free
    (free : ∀ instruction, barred instruction = false)
    {tree : Tree}
    {address : Nat}
    {instruction : Instruction}
    (present : instruction ∈ tree.instructions address) :
    tree.Reaches barred address instruction := by
  have passes := passes_of_free free
  induction tree generalizing address with
  | empty => simp at present
  | plain order => simpa [Reaches] using present
  | seq first second firstHypothesis secondHypothesis =>
      rw [instructions_seq, List.mem_append] at present
      exact present.imp firstHypothesis fun inSecond => ⟨passes _ _, secondHypothesis inSecond⟩
  | skip test body bodyHypothesis =>
      rw [instructions_skip, List.mem_cons] at present
      exact present.imp id bodyHypothesis
  | choose test body rest bodyHypothesis restHypothesis =>
      rw [instructions_choose, List.mem_cons, List.mem_append, List.mem_cons] at present
      exact present.imp id (Or.imp bodyHypothesis (Or.imp (⟨passes _ _, ·⟩) restHypothesis))
  | loop head test body headHypothesis bodyHypothesis =>
      rw [instructions_loop, List.mem_append, List.mem_cons, List.mem_append,
        List.mem_singleton] at present
      exact present.imp headHypothesis fun inside =>
        ⟨passes _ _, inside.imp id (Or.imp bodyHypothesis (⟨passes _ _, ·⟩))⟩

/-! ## What is reached is closed under steps -/

/-- What a part arrives at the whole does, if the whole goes on where the part ends. -/
theorem Arrives.through
    {inner outer : Tree}
    {innerAddress outerAddress place : Nat}
    (arrives : inner.Arrives barred innerAddress place)
    (within : ∀ instruction, inner.Reaches barred innerAddress instruction →
      outer.Reaches barred outerAddress instruction)
    (goesOn : inner.Passes barred innerAddress →
      outer.Arrives barred outerAddress (innerAddress + inner.size)) :
    outer.Arrives barred outerAddress place := by
  rcases arrives with ⟨instruction, reached, here⟩ | ⟨passed, rfl⟩
  · exact .inl ⟨instruction, within instruction reached, here⟩
  · exact goesOn passed

/-- A tree is entered at its first instruction, or there is none and it is passed. -/
theorem arrives_start (tree : Tree) (address : Nat) : tree.Arrives barred address address := by
  induction tree generalizing address with
  | empty => exact .inr ⟨trivial, rfl⟩
  | plain order => exact .inl ⟨_, rfl, rfl⟩
  | seq first second firstHypothesis secondHypothesis =>
      refine (firstHypothesis address).through (fun _ => .inl) fun passed => ?_
      refine (secondHypothesis _).through (fun _ reached => .inr ⟨passed, reached⟩) fun rest => ?_
      exact .inr ⟨⟨passed, rest⟩, Nat.add_assoc _ _ _⟩
  | skip test body _ => exact .inl ⟨_, .inl rfl, rfl⟩
  | choose test body rest _ _ => exact .inl ⟨_, .inl rfl, rfl⟩
  | loop head test body headHypothesis _ =>
      refine (headHypothesis address).through (fun _ => .inl) fun passed => ?_
      exact .inl ⟨_, .inr ⟨passed, .inl rfl⟩, rfl⟩

/-- An instruction that is reached and not barred leads to what is reached. -/
theorem Reaches.step
    {tree : Tree}
    {address next : Nat}
    {instruction : Instruction}
    (orderly : tree.Orderly)
    (fits : tree.Fits)
    (reaches : tree.Reaches barred address instruction)
    (free : barred instruction = false)
    (leads : instruction.LeadsTo next) :
    tree.Arrives barred address next := by
  induction tree generalizing address with
  | empty => exact reaches.elim
  | plain order =>
      obtain rfl := reaches
      exact .inr ⟨free, (Order.leadsTo_straight orderly).mp leads⟩
  | seq first second firstHypothesis secondHypothesis =>
      rcases reaches with inFirst | ⟨passed, inSecond⟩
      · refine (firstHypothesis orderly.1 fits.1 inFirst).through (fun _ => .inl) fun passed => ?_
        refine (arrives_start second _).through (fun _ reached => .inr ⟨passed, reached⟩)
          fun rest => ?_
        exact .inr ⟨⟨passed, rest⟩, Nat.add_assoc _ _ _⟩
      · refine (secondHypothesis orderly.2 fits.2 inSecond).through
          (fun _ reached => .inr ⟨passed, reached⟩) fun rest => ?_
        exact .inr ⟨⟨passed, rest⟩, Nat.add_assoc _ _ _⟩
  | skip test body bodyHypothesis =>
      have leaves (place : Nat) (arrives : body.Arrives barred (address + 3) place) :
          (Tree.skip test body).Arrives barred address place :=
        arrives.through (fun _ => .inr) fun _ => .inr ⟨trivial, by simp only [size]; omega⟩
      have near := fits.2
      rcases reaches with rfl | inBody
      · rcases (Order.leadsTo_branch test (address + (3 + body.size)) (by omega) (by omega)
          (by omega)).mp leads with ⟨-, rfl⟩ | rfl
        · exact leaves _ (arrives_start body _)
        · exact .inr ⟨trivial, rfl⟩
      · exact leaves _ (bodyHypothesis orderly.2 fits.1 inBody)
  | choose test body rest bodyHypothesis restHypothesis =>
      -- Behind the body comes a branch over the rest.
      have leavesBody (place : Nat) (arrives : body.Arrives barred (address + 3) place) :
          (Tree.choose test body rest).Arrives barred address place :=
        arrives.through (fun _ reached => .inr (.inl reached)) fun passed =>
          .inl ⟨_, .inr (.inr (.inl ⟨passed, rfl⟩)), by simp only [Order.address_standing]; omega⟩
      have leavesRest (place : Nat)
          (arrives : rest.Arrives barred (address + (3 + body.size + 3)) place) :
          (Tree.choose test body rest).Arrives barred address place :=
        arrives.through (fun _ reached => .inr (.inr (.inr reached))) fun passed =>
          .inr ⟨.inr passed, by simp only [size]; omega⟩
      obtain ⟨bodyFits, restFits, near, restNear⟩ := fits
      rcases reaches with rfl | inBody | ⟨passed, rfl⟩ | inRest
      · rcases (Order.leadsTo_branch test (address + (3 + body.size + 3)) (by omega)
          (by omega) (by omega)).mp leads with ⟨-, rfl⟩ | rfl
        · exact leavesBody _ (arrives_start body _)
        · exact leavesRest _ (arrives_start rest _)
      · exact leavesBody _ (bodyHypothesis orderly.2.1 bodyFits inBody)
      · rcases (Order.leadsTo_branch .always (address + (3 + body.size + (3 + rest.size)))
          (by omega) (by omega) (by omega)).mp leads with ⟨never, -⟩ | rfl
        · exact absurd rfl never
        · exact .inr ⟨.inl passed, rfl⟩
      · exact leavesRest _ (restHypothesis orderly.2.2 restFits inRest)
  | loop head test body headHypothesis bodyHypothesis =>
      -- Behind the head comes the test, and behind the body a branch back to the head.
      have leavesHead (place : Nat) (arrives : head.Arrives barred address place) :
          (Tree.loop head test body).Arrives barred address place :=
        arrives.through (fun _ => .inl) fun passed => .inl ⟨_, .inr ⟨passed, .inl rfl⟩, rfl⟩
      have leavesBody (passed : head.Passes barred address) (place : Nat)
          (arrives : body.Arrives barred (address + (head.size + 3)) place) :
          (Tree.loop head test body).Arrives barred address place :=
        arrives.through (fun _ reached => .inr ⟨passed, .inr (.inl reached)⟩) fun bodyPassed =>
          .inl ⟨_, .inr ⟨passed, .inr (.inr ⟨bodyPassed, rfl⟩)⟩,
            by simp only [Order.address_standing]; omega⟩
      obtain ⟨headFits, bodyFits, near, back⟩ := fits
      rcases reaches with inHead | ⟨passed, rfl | inBody | ⟨bodyPassed, rfl⟩⟩
      · exact leavesHead _ (headHypothesis orderly.1 headFits inHead)
      · rcases (Order.leadsTo_branch test (address + head.size + (3 + body.size + 3))
          (by omega) (by omega) (by omega)).mp leads with ⟨-, rfl⟩ | rfl
        · exact leavesBody passed _ (arrives_start body _)
        · exact .inr ⟨passed, by simp only [size]; omega⟩
      · exact leavesBody passed _ (bodyHypothesis orderly.2.2 bodyFits inBody)
      · rcases (Order.leadsTo_branch .always address (by omega) (by omega) (by omega)).mp leads
          with ⟨never, -⟩ | rfl
        · exact absurd rfl never
        · exact leavesHead _ (arrives_start head _)

/-! ## What is reached, there are walks to -/

section Walks

variable {code : List UInt8} (branchesFree : ∀ instruction : Instruction,
  instruction.opcode.isBranch = true → barred instruction = false)
include branchesFree

/-- The walks over a branch. -/
theorem walksTo_branch
    {test : Test}
    {offset : Int}
    {address : Nat}
    (target : Nat)
    (present : (Order.branch test offset).standing address ∈ decode code)
    (least : -32768 ≤ offset)
    (greatest : offset ≤ 32767)
    (leads : (target : Int) = address + offset) :
    (test ≠ .always → WalksTo code barred address (address + 3)) ∧
      WalksTo code barred address target := by
  have isBranch : (Order.branch test offset).opcode.isBranch = true := by cases test <;> rfl
  have free := branchesFree ((Order.branch test offset).standing address) isBranch
  have walks {next : Nat} (goes : (test ≠ .always ∧ next = address + 3) ∨ next = target) :
      WalksTo code barred address next :=
    .single present ((Order.leadsTo_branch test target least greatest leads).mpr goes) free
  exact ⟨fun sometimes => walks (.inl ⟨sometimes, rfl⟩), walks (.inr rfl)⟩

/-- A tree that is passed has a walk through it, and an instruction that is reached has a
walk to it. -/
theorem walksTo
    {tree : Tree}
    {address : Nat}
    (orderly : tree.Orderly)
    (fits : tree.Fits)
    (present : ∀ instruction ∈ tree.instructions address, instruction ∈ decode code) :
    (tree.Passes barred address → WalksTo code barred address (address + tree.size)) ∧
      ∀ instruction, tree.Reaches barred address instruction →
        WalksTo code barred address instruction.address := by
  induction tree generalizing address with
  | empty => exact ⟨fun _ => .refl _, fun _ => False.elim⟩
  | plain order =>
      refine ⟨fun passes => ?_, ?_⟩
      · exact .single (present _ (by simp)) ((Order.leadsTo_straight orderly).mpr rfl) passes
      · rintro instruction rfl
        exact .refl _
  | seq first second firstHypothesis secondHypothesis =>
      rw [instructions_seq, List.forall_mem_append] at present
      obtain ⟨firstThrough, firstTo⟩ := firstHypothesis orderly.1 fits.1 present.1
      obtain ⟨secondThrough, secondTo⟩ := secondHypothesis orderly.2 fits.2 present.2
      refine ⟨fun ⟨firstPasses, secondPasses⟩ => ?_, ?_⟩
      · rw [size, ← Nat.add_assoc]
        exact (firstThrough firstPasses).trans (secondThrough secondPasses)
      · rintro instruction (inFirst | ⟨passes, inSecond⟩)
        · exact firstTo instruction inFirst
        · exact (firstThrough passes).trans (secondTo instruction inSecond)
  | skip test body bodyHypothesis =>
      rw [instructions_skip, List.forall_mem_cons] at present
      obtain ⟨branchPresent, bodyPresent⟩ := present
      have near := fits.2
      obtain ⟨goesOn, goesOver⟩ := walksTo_branch branchesFree (address + (3 + body.size))
        branchPresent (by omega) (by omega) (by omega)
      obtain ⟨-, bodyTo⟩ := bodyHypothesis orderly.2 fits.1 bodyPresent
      refine ⟨fun _ => goesOver, ?_⟩
      rintro instruction (rfl | inBody)
      · exact .refl _
      · exact (goesOn orderly.1).trans (bodyTo instruction inBody)
  | choose test body rest bodyHypothesis restHypothesis =>
      rw [instructions_choose, List.forall_mem_cons, List.forall_mem_append,
        List.forall_mem_cons] at present
      obtain ⟨branchPresent, bodyPresent, gotoPresent, restPresent⟩ := present
      obtain ⟨sometimes, bodyOrderly, restOrderly⟩ := orderly
      obtain ⟨bodyFits, restFits, near, restNear⟩ := fits
      obtain ⟨goesOn, goesOver⟩ := walksTo_branch branchesFree (address + (3 + body.size + 3))
        branchPresent (by omega) (by omega) (by omega)
      obtain ⟨-, goesOut⟩ := walksTo_branch branchesFree
        (address + (3 + body.size + (3 + rest.size))) gotoPresent (by omega) (by omega) (by omega)
      obtain ⟨bodyThrough, bodyTo⟩ := bodyHypothesis bodyOrderly bodyFits bodyPresent
      obtain ⟨restThrough, restTo⟩ := restHypothesis restOrderly restFits restPresent
      have toGoto (passes : body.Passes barred (address + 3)) :
          WalksTo code barred address (address + (3 + body.size)) := by
        rw [← Nat.add_assoc]
        exact (goesOn sometimes).trans (bodyThrough passes)
      refine ⟨?_, ?_⟩
      · rintro (bodyPasses | restPasses)
        · exact (toGoto bodyPasses).trans goesOut
        · have through := goesOver.trans (restThrough restPasses)
          rwa [Nat.add_assoc, Nat.add_assoc] at through
      · rintro instruction (rfl | inBody | ⟨passes, rfl⟩ | inRest)
        · exact .refl _
        · exact (goesOn sometimes).trans (bodyTo instruction inBody)
        · exact toGoto passes
        · exact goesOver.trans (restTo instruction inRest)
  | loop head test body headHypothesis bodyHypothesis =>
      rw [instructions_loop, List.forall_mem_append, List.forall_mem_cons,
        List.forall_mem_append, List.forall_mem_singleton] at present
      obtain ⟨headPresent, branchPresent, bodyPresent, gotoPresent⟩ := present
      obtain ⟨headOrderly, sometimes, bodyOrderly⟩ := orderly
      obtain ⟨headFits, bodyFits, near, back⟩ := fits
      obtain ⟨goesOn, goesOut⟩ := walksTo_branch branchesFree
        (address + (head.size + (3 + body.size + 3))) branchPresent (by omega) (by omega) (by omega)
      obtain ⟨headThrough, headTo⟩ := headHypothesis headOrderly headFits headPresent
      obtain ⟨bodyThrough, bodyTo⟩ := bodyHypothesis bodyOrderly bodyFits bodyPresent
      have toBody (passes : head.Passes barred address) :
          WalksTo code barred address (address + (head.size + 3)) := by
        rw [← Nat.add_assoc]
        exact (headThrough passes).trans (goesOn sometimes)
      refine ⟨fun passes => (headThrough passes).trans goesOut, ?_⟩
      rintro instruction (inHead | ⟨passes, rfl | inBody | ⟨bodyPasses, rfl⟩⟩)
      · exact headTo instruction inHead
      · exact headThrough passes
      · exact (toBody passes).trans (bodyTo instruction inBody)
      · have through := (toBody passes).trans (bodyThrough bodyPasses)
        rwa [Nat.add_assoc, Nat.add_assoc] at through

end Walks

end Tree

/-- Code that is made of a tree and a return. -/
structure Finished (code : List UInt8) (tree : Tree) : Prop where
  /-- The bytes are those of the tree and a return. -/
  bytes : code = (Tree.seq tree (.plain .leave)).bytes
  /-- The offsets of branches can be written. -/
  fits : tree.Fits
  /-- Only branches lead anywhere but on. -/
  orderly : tree.Orderly

namespace Finished

variable {code : List UInt8} {tree : Tree} {barred : Instruction → Bool}

/-- Finished code is read back as the instructions of its tree and a return. -/
theorem decode_eq (finished : Finished code tree) :
    decode code = tree.instructions 0 ++ [Order.leave.standing tree.size] := by
  have placed : decode code = (Tree.seq tree (.plain .leave)).instructions 0 := by
    rw [finished.bytes]
    exact Order.decode_listBytes _
  rw [placed, Tree.instructions_seq, Nat.zero_add, Tree.instructions_plain]

/-- A return leads nowhere. -/
theorem not_leadsTo_leave (address next : Nat) : ¬(Order.leave.standing address).LeadsTo next := by
  simp [Instruction.LeadsTo, Instruction.target?, Order.leave, Opcode.fallsThrough,
    Opcode.isBranch]

/-- No two instructions of finished code are at one address. -/
theorem eq_of_address_eq
    (finished : Finished code tree)
    {first second : Instruction}
    (firstPresent : first ∈ decode code)
    (secondPresent : second ∈ decode code)
    (same : first.address = second.address) :
    first = second := by
  rw [finished.bytes, Tree.bytes, Order.decode_listBytes] at firstPresent secondPresent
  exact Order.eq_of_address_eq firstPresent secondPresent same

/-- Walks along the code lead to what the tree reaches. -/
theorem arrives
    (finished : Finished code tree)
    {place : Nat}
    (walks : WalksTo code barred 0 place) :
    tree.Arrives barred 0 place := by
  have decoded := finished.decode_eq
  refine walks.invariant (tree.arrives_start 0) ?_
  rintro instruction present free (⟨reached, reaches, here⟩ | ⟨-, last⟩) next leads
  · have inside : reached ∈ decode code := by
      rw [decoded]
      exact List.mem_append_left _ reaches.mem_instructions
    obtain rfl := finished.eq_of_address_eq inside present here
    exact reaches.step finished.orderly finished.fits free leads
  · have behind : Order.leave.standing tree.size ∈ decode code := by simp [decoded]
    obtain rfl := finished.eq_of_address_eq behind present (by simp [last])
    exact absurd leads (not_leadsTo_leave _ _)

/-- An instruction of the tree has a walk to it just if the tree reaches it. -/
theorem walksTo_iff
    (finished : Finished code tree)
    (branchesFree : ∀ instruction : Instruction,
      instruction.opcode.isBranch = true → barred instruction = false)
    {instruction : Instruction}
    (inside : instruction ∈ tree.instructions 0) :
    WalksTo code barred 0 instruction.address ↔ tree.Reaches barred 0 instruction := by
  have decoded := finished.decode_eq
  have present : ∀ other ∈ tree.instructions 0, other ∈ decode code := by
    intro other isInside
    rw [decoded]
    exact List.mem_append_left _ isInside
  constructor
  · intro walks
    rcases finished.arrives walks with ⟨reached, reaches, here⟩ | ⟨-, last⟩
    · obtain rfl := finished.eq_of_address_eq (present _ reaches.mem_instructions)
        (present _ inside) here
      exact reaches
    · have before := Tree.address_lt inside
      omega
  · exact (Tree.walksTo branchesFree finished.orderly finished.fits present).2 instruction

end Finished
end Compile
end Pictogram
