import Pictogram.Proofs.Code.Tree

/-!
# Growing code

Every step of the generator adds bytes at the end of the code and keeps account
of the height of the stack.  Only a branch that has been left open is touched
again, and then only its offset.
-/

namespace Pictogram
namespace Compile

open Machine (Order Test Opcode)

namespace Code

/-- The code with further bytes, along which the height of the stack changes by
`effect` and gets `peak` higher than before. -/
def grow (code : Code) (bytes : List UInt8) (effect peak : Int) : Code where
  bytes := code.bytes ++ bytes.toArray
  depth := code.depth + effect
  maxDepth := max code.maxDepth (code.depth + peak)

/-- The code with the instructions of a tree. -/
def extend (code : Code) (tree : Tree) : Code :=
  code.grow tree.bytes tree.effect tree.peak

/-- The height of the stack has been taken into account. -/
def Settled (code : Code) : Prop := code.depth ≤ code.maxDepth

/-- Code that has grown ends as many bytes later as it was given. -/
@[simp] theorem position_grow (code : Code) (bytes : List UInt8) (effect peak : Int) :
    (code.grow bytes effect peak).position = code.position + bytes.length := by
  simp [grow, position]

/-- Code that has grown is settled, if its peak is not below where it ends. -/
theorem settled_grow
    (code : Code)
    (bytes : List UInt8)
    {effect peak : Int}
    (le : effect ≤ peak) :
    (code.grow bytes effect peak).Settled := by
  simp only [Settled, grow]
  omega

/-- Code that a tree has been written to is settled. -/
theorem settled_extend (code : Code) (tree : Tree) : (code.extend tree).Settled :=
  code.settled_grow _ tree.effect_le_peak

/-- Growing twice is growing once, with the higher of the two peaks. -/
theorem grow_grow
    (code : Code)
    (first second : List UInt8)
    (firstEffect firstPeak secondEffect secondPeak : Int) :
    (code.grow first firstEffect firstPeak).grow second secondEffect secondPeak =
      code.grow (first ++ second) (firstEffect + secondEffect)
        (max firstPeak (firstEffect + secondPeak)) := by
  simp only [grow, Code.mk.injEq]
  refine ⟨by simp, ?_, ?_⟩ <;> omega

/-- Writing the empty tree leaves settled code as it is. -/
theorem extend_empty {code : Code} (settled : code.Settled) : code.extend .empty = code := by
  obtain ⟨bytes, depth, maxDepth⟩ := code
  simp only [Settled] at settled
  simp only [extend, grow, Tree.bytes_empty, Tree.effect, Tree.peak, Code.mk.injEq]
  refine ⟨by simp, ?_, ?_⟩ <;> omega

/-- Writing a sequence is writing its two parts in turn. -/
theorem extend_seq (code : Code) (first second : Tree) :
    code.extend (.seq first second) = (code.extend first).extend second := by
  simp only [extend, grow_grow, Tree.bytes_seq, Tree.effect, Tree.peak]

/-- Growth that gets no higher than the stack has been already can be stated with
any such height. -/
theorem grow_of_le
    {code : Code}
    (settled : code.Settled)
    (bytes : List UInt8)
    (effect peak : Int) :
    code.grow bytes effect (max 0 peak) = code.grow bytes effect peak := by
  simp only [Settled] at settled
  simp only [grow, Code.mk.injEq, true_and]
  omega

theorem foldl_push (bytes : Array UInt8) (operands : List UInt8) :
    operands.foldl Array.push bytes = bytes ++ operands.toArray := by
  induction operands generalizing bytes with
  | nil => simp
  | cons byte rest inductionHypothesis => simp [inductionHypothesis]

/-- Appending an instruction is growing by its bytes, and by the effect of its opcode. -/
theorem append_eq_grow
    (code : Code)
    {opcode : Opcode}
    {change : Int}
    (operands : List UInt8)
    (known : opcode.stackEffect? = some change) :
    code.append opcode operands = code.grow (opcode.byte :: operands) change change := by
  simp only [append, known, adjust, grow, Code.mk.injEq, foldl_push]
  simp

/-- Appending an instruction to settled code is writing a tree of that instruction. -/
theorem append_eq_extend
    {code : Code}
    (settled : code.Settled)
    (order : Order)
    {change : Int}
    (known : order.opcode.stackEffect? = some change) :
    code.append order.opcode order.operands = code.extend (.plain order) := by
  have sameChange : order.change = change := by simp [Order.change, known]
  rw [append_eq_grow code order.operands known, extend, Tree.bytes_plain, Tree.effect, Tree.peak,
    sameChange, grow_of_le settled]
  rfl

/-- A call that takes the stream and one argument. -/
theorem invoke_eq_extend
    {code : Code}
    (settled : code.Settled)
    (method : UInt16) :
    code.invoke .invokeVirtual method (-2) =
      code.extend (.plain ⟨.invokeVirtual, Bytes.word method, rfl⟩) := by
  rw [extend, Tree.bytes_plain, Tree.effect, Tree.peak]
  simp only [Settled] at settled
  simp only [invoke, emitWord, append, Opcode.stackEffect?, adjust, grow, Code.mk.injEq,
    foldl_push, Order.bytes, Order.change, Option.getD_none]
  refine ⟨by simp, trivial, ?_⟩
  omega

/-! ## Branches to be filled in -/

/-- A branch whose offset is to be filled in. -/
def hole (test : Test) : List UInt8 := [test.opcode.byte, 0xFF, 0xFF]

@[simp] theorem length_hole (test : Test) : (hole test).length = 3 := rfl

/-- Writing an open branch is growing by its placeholder. -/
theorem jump_eq_grow (code : Code) (test : Test) :
    code.jump test.opcode = code.grow (hole test) test.change test.change :=
  append_eq_grow code _ (Test.stackEffect?_opcode test)

/-- The bytes with a branch made to lead to an address. -/
def redirect (bytes : Array UInt8) (branch : Jump) (target : Nat) : Array UInt8 :=
  overwrite bytes (branch.address + 1) (Bytes.signed 2 ((target : Int) - branch.address))

/-- Making a branch lead elsewhere sets the two bytes behind its opcode. -/
theorem redirect_eq_set (bytes : Array UInt8) (branch : Jump) (target : Nat) :
    ∃ first second, Bytes.signed 2 ((target : Int) - branch.address) = [first, second] ∧
      redirect bytes branch target =
        (bytes.setIfInBounds (branch.address + 1) first).setIfInBounds
          (branch.address + 2) second := by
  obtain ⟨first, second, both⟩ :=
    List.length_eq_two.mp (Bytes.length_signed 2 ((target : Int) - branch.address))
  exact ⟨first, second, both, by rw [redirect, both]; rfl⟩

/-- Making a branch lead elsewhere does not change how many bytes there are. -/
@[simp] theorem size_redirect (bytes : Array UInt8) (branch : Jump) (target : Nat) :
    (redirect bytes branch target).size = bytes.size := by
  obtain ⟨first, second, -, redirected⟩ := redirect_eq_set bytes branch target
  simp [redirected]

/-- Bytes after a branch do not matter when it is filled in. -/
theorem redirect_append
    {bytes : Array UInt8}
    {branch : Jump}
    (inside : branch.address + 2 < bytes.size)
    (target : Nat)
    (more : Array UInt8) :
    redirect (bytes ++ more) branch target = redirect bytes branch target ++ more := by
  obtain ⟨first, second, both, redirected⟩ := redirect_eq_set (bytes ++ more) branch target
  obtain ⟨first', second', both', redirected'⟩ := redirect_eq_set bytes branch target
  rw [both] at both'
  obtain ⟨rfl, rest⟩ := List.cons.inj both'
  obtain ⟨rfl, -⟩ := List.cons.inj rest
  rw [redirected, redirected', Array.setIfInBounds_append_left (by omega),
    Array.setIfInBounds_append_left (by simpa using inside)]

/-- Filling in a branch changes its two operands, whatever they were. -/
theorem redirect_operands
    (front : Array UInt8)
    (opcode first second : UInt8)
    (back : List UInt8)
    (target : Nat) :
    redirect (front ++ (opcode :: first :: second :: back).toArray) ⟨front.size⟩ target =
      front ++ (opcode :: (Bytes.signed 2 ((target : Int) - front.size) ++ back)).toArray := by
  obtain ⟨high, low, both, redirected⟩ :=
    redirect_eq_set (front ++ (opcode :: first :: second :: back).toArray) ⟨front.size⟩ target
  simp only at both
  rw [redirected, both]
  apply Array.toList_inj.mp
  simp

/-- Filling in a branch gives the branch with that offset. -/
theorem redirect_hole
    (front : Array UInt8)
    (test : Test)
    (back : List UInt8)
    (target : Nat) :
    redirect (front ++ (hole test ++ back).toArray) ⟨front.size⟩ target =
      front ++ ((Order.branch test ((target : Int) - front.size)).bytes ++ back).toArray :=
  redirect_operands front test.opcode.byte 0xFF 0xFF back target

/-- The two branches of a choice, the second of which is filled in when all of its
second part has been written. -/
theorem redirect_choose
    (front : Array UInt8)
    (test : Test)
    (body rest : Tree) :
    redirect
        (redirect (front ++ (hole test ++ (body.bytes ++ hole .always)).toArray) ⟨front.size⟩
            (front.size + (3 + body.size + 3)) ++ rest.bytes.toArray)
        ⟨front.size + (3 + body.size)⟩ (front.size + (3 + body.size + 3) + rest.size) =
      front ++ (Tree.choose test body rest).bytes.toArray := by
  have first : ((front.size + (3 + body.size + 3) : Nat) : Int) - front.size =
      3 + body.size + 3 := by omega
  rw [redirect_hole, first]
  have again := redirect_hole
    (front ++ ((Order.branch test (3 + body.size + 3)).bytes ++ body.bytes).toArray) .always
    rest.bytes (front.size + (3 + body.size + 3) + rest.size)
  have place : (front ++
      ((Order.branch test (3 + body.size + 3)).bytes ++ body.bytes).toArray).size =
        front.size + (3 + body.size) := by
    simp only [Array.size_append, List.size_toArray, List.length_append,
      Order.length_bytes_branch, Tree.length_bytes]
  have second : ((front.size + (3 + body.size + 3) + rest.size : Nat) : Int) -
      ((front.size + (3 + body.size) : Nat) : Int) = 3 + rest.size := by omega
  rw [place, second] at again
  simpa [Tree.bytes_choose] using again

/-- The bytes with several branches made to lead to one address. -/
def redirectAll (bytes : Array UInt8) (target : Nat) : List Jump → Array UInt8
  | [] => bytes
  | branch :: rest => redirectAll (redirect bytes branch target) target rest

/-- Branches inside the code can be made to lead elsewhere before or after more bytes are appended.
-/
theorem redirectAll_append
    {bytes : Array UInt8}
    {branches : List Jump}
    (inside : ∀ branch ∈ branches, branch.address + 2 < bytes.size)
    (target : Nat)
    (more : Array UInt8) :
    redirectAll (bytes ++ more) target branches = redirectAll bytes target branches ++ more := by
  induction branches generalizing bytes with
  | nil => rfl
  | cons branch rest inductionHypothesis =>
      have first : branch.address + 2 < bytes.size := inside branch (by simp)
      rw [redirectAll, redirectAll, redirect_append first, inductionHypothesis]
      intro other present
      rw [size_redirect]
      exact inside other (by simp [present])

theorem redirectAll_concat
    (bytes : Array UInt8)
    (target : Nat)
    (branches : List Jump)
    (last : Jump) :
    redirectAll bytes target (branches ++ [last]) =
      redirect (redirectAll bytes target branches) last target := by
  induction branches generalizing bytes with
  | nil => rfl
  | cons branch rest inductionHypothesis => exact inductionHypothesis _

/-- Making branches lead elsewhere does not change how many bytes there are. -/
@[simp] theorem size_redirectAll
    (bytes : Array UInt8)
    (target : Nat)
    (branches : List Jump) :
    (redirectAll bytes target branches).size = bytes.size := by
  induction branches generalizing bytes with
  | nil => rfl
  | cons branch rest inductionHypothesis => rw [redirectAll, inductionHypothesis, size_redirect]

/-- The last of several branches, behind which all others have been written. -/
theorem redirectAll_hole
    {bytes : Array UInt8}
    {branches : List Jump}
    (inside : ∀ branch ∈ branches, branch.address + 2 < bytes.size)
    (target : Nat)
    (back : List UInt8) :
    redirectAll (bytes ++ (hole .always ++ back).toArray) target (branches ++ [⟨bytes.size⟩]) =
      redirectAll bytes target branches ++
        ((Order.branch .always ((target : Int) - bytes.size)).bytes ++ back).toArray := by
  rw [redirectAll_concat, redirectAll_append inside]
  have filled := redirect_hole (redirectAll bytes target branches) .always back target
  rwa [size_redirectAll] at filled

@[simp] theorem position_extend (code : Code) (tree : Tree) :
    (code.extend tree).position = code.position + tree.size := by
  simp [extend]

/-- A head, an open branch and a body, with which a loop is written up to its last
branch. -/
def enter (code : Code) (head : Tree) (test : Test) (body : Tree) : Code :=
  ((code.extend head).grow (hole test) test.change test.change).extend body

@[simp] theorem position_enter (code : Code) (head : Tree) (test : Test) (body : Tree) :
    (code.enter head test body).position =
      code.position + (head.size + (3 + body.size)) := by
  simp only [enter, position_extend, position_grow, length_hole]
  omega

theorem bytes_enter (code : Code) (head : Tree) (test : Test) (body : Tree) :
    (code.enter head test body).bytes =
      code.bytes ++ head.bytes.toArray ++ (hole test ++ body.bytes).toArray := by
  simp [enter, extend, grow]

/-- The last branch of a loop leads back to its head, and then the open branch is
made to lead past it. -/
theorem enter_eq_extend_loop
    (code : Code)
    (head : Tree)
    (test : Test)
    {body : Tree}
    (flat : body.effect = 0) :
    let closed := (code.enter head test body).grow
      (Order.branch .always (-(head.size + (3 + body.size)))).bytes 0 0
    ({ closed with
        bytes := redirect closed.bytes ⟨code.position + head.size⟩ closed.position } : Code) =
      code.extend (.loop head test body) := by
  intro closed
  have bytes : redirect closed.bytes ⟨code.position + head.size⟩ closed.position =
      code.bytes ++ (Tree.loop head test body).bytes.toArray := by
    have filled := redirect_hole (code.bytes ++ head.bytes.toArray) test
      (body.bytes ++ (Order.branch .always (-(head.size + (3 + body.size)))).bytes)
      closed.position
    have place : (code.bytes ++ head.bytes.toArray).size = code.position + head.size := by
      simp [position]
    have reach : (closed.position : Int) - ((code.position + head.size : Nat) : Int) =
        3 + body.size + 3 := by
      simp only [closed, position_grow, position_enter, Order.length_bytes_branch]
      omega
    rw [place, reach] at filled
    simpa [closed, grow, bytes_enter, Tree.bytes_loop] using filled
  have peaks := body.peak_nonneg
  simp only [bytes, extend, grow, Code.mk.injEq, true_and]
  simp only [closed, enter, extend, grow, Tree.effect, Tree.peak, flat]
  refine ⟨?_, ?_⟩ <;> omega

end Code
end Compile
end Pictogram
