import Pictogram.Compile.Code
import Pictogram.Proofs.Machine.Action
import Pictogram.Proofs.Machine.Bytes

/-!
# Code with its structure

A tree is code whose branches follow a pattern: a part that is skipped, a choice
between two parts, a loop.  The instructions of a tree are laid out one after
another, and the offset of each branch is given by the sizes of the parts that
it passes over.
-/

namespace Pictogram
namespace Machine

/-- The opcode of a branch. -/
def Test.opcode : Test → Opcode
  | .always => .goto
  | .zero => .ifZero
  | .nonzero => .ifNonzero
  | .compare relation => .ifCompare relation

/-- A branch by an offset. -/
def Order.branch (test : Test) (offset : Int) : Order where
  opcode := test.opcode
  operands := Bytes.signed 2 offset
  complete := by cases test <;> simp [Test.opcode, Opcode.operandSize]

@[simp] theorem Order.length_bytes_branch (test : Test) (offset : Int) :
    (Order.branch test offset).bytes.length = 3 := by
  simp [Order.bytes, Order.branch]

/-- A branch whose offset has 16 bits stands for that branch. -/
theorem Order.action?_branch
    (test : Test)
    {offset : Int}
    (least : -32768 ≤ offset)
    (greatest : offset ≤ 32767) :
    (Order.branch test offset).action? = some (.branch test offset) := by
  have back := Bytes.toInt_signed_two least greatest
  obtain ⟨first, second, both⟩ :=
    List.length_eq_two.mp (Bytes.length_signed 2 offset)
  rw [both] at back
  cases test <;>
    simp [Order.action?, Order.branch, Test.opcode, Opcode.action?, Opcode.pairAction?, both, back]

/-- How an instruction changes the height of the stack.  A call takes the stream
and one argument. -/
def Order.change (order : Order) : Int := order.opcode.stackEffect?.getD (-2)

/-- How a test changes the height of the stack. -/
def Test.change : Test → Int
  | .always => 0
  | .zero | .nonzero => -1
  | .compare _ => -2

/-- The opcode of a branch changes the stack as its test does. -/
@[simp] theorem Test.stackEffect?_opcode (test : Test) :
    test.opcode.stackEffect? = some test.change := by
  cases test <;> rfl

@[simp] theorem Order.change_branch (test : Test) (offset : Int) :
    (Order.branch test offset).change = test.change := by
  simp [Order.change, Order.branch]

/-- No instruction makes the stack more than one higher. -/
theorem Order.change_le_one (order : Order) : order.change ≤ 1 := by
  obtain ⟨opcode, operands, -⟩ := order
  cases opcode <;> simp [Order.change, Opcode.stackEffect?]

/-- No test makes the stack higher. -/
theorem Test.change_nonpos (test : Test) : test.change ≤ 0 := by
  cases test <;> simp [Test.change]

end Machine

namespace Compile

open Machine (Order Test Opcode)

/-- Code with its structure. -/
inductive Tree where
  /-- No code. -/
  | empty
  /-- One instruction that is no branch. -/
  | plain (order : Order)
  /-- One part after another. -/
  | seq (first second : Tree)
  /-- A part that is passed over if the test holds. -/
  | skip (test : Test) (body : Tree)
  /-- The second part if the test holds, else the first. -/
  | choose (test : Test) (body rest : Tree)
  /-- A head and, unless the test holds, a body and all of it again. -/
  | loop (head : Tree) (test : Test) (body : Tree)

namespace Tree

/-- The number of bytes. -/
def size : Tree → Nat
  | .empty => 0
  | .plain order => order.size
  | .seq first second => first.size + second.size
  | .skip _ body => 3 + body.size
  | .choose _ body rest => 3 + body.size + (3 + rest.size)
  | .loop head _ body => head.size + (3 + body.size + 3)

/-- The instructions in order. -/
def orders : Tree → List Order
  | .empty => []
  | .plain order => [order]
  | .seq first second => first.orders ++ second.orders
  | .skip test body => .branch test (3 + body.size) :: body.orders
  | .choose test body rest =>
    .branch test (3 + body.size + 3) :: body.orders ++
      .branch .always (3 + rest.size) :: rest.orders
  | .loop head test body =>
    head.orders ++ .branch test (3 + body.size + 3) :: body.orders ++
      [.branch .always (-(head.size + (3 + body.size)))]

/-- The bytes of the instructions. -/
def bytes (tree : Tree) : List UInt8 := Order.listBytes tree.orders

@[simp] theorem bytes_empty : Tree.empty.bytes = [] := rfl

@[simp] theorem bytes_plain (order : Order) : (Tree.plain order).bytes = order.bytes := by
  simp [bytes, orders]

@[simp] theorem bytes_seq (first second : Tree) :
    (Tree.seq first second).bytes = first.bytes ++ second.bytes := by
  simp [bytes, orders]

@[simp] theorem bytes_skip (test : Test) (body : Tree) :
    (Tree.skip test body).bytes =
      (Order.branch test (3 + body.size)).bytes ++ body.bytes := by
  simp [bytes, orders]

@[simp] theorem bytes_choose (test : Test) (body rest : Tree) :
    (Tree.choose test body rest).bytes =
      (Order.branch test (3 + body.size + 3)).bytes ++ (body.bytes ++
        ((Order.branch .always (3 + rest.size)).bytes ++ rest.bytes)) := by
  simp [bytes, orders]

@[simp] theorem bytes_loop (head : Tree) (test : Test) (body : Tree) :
    (Tree.loop head test body).bytes =
      head.bytes ++ ((Order.branch test (3 + body.size + 3)).bytes ++ (body.bytes ++
        (Order.branch .always (-(head.size + (3 + body.size)))).bytes)) := by
  simp only [bytes, orders, Order.listBytes_append, Order.listBytes_cons, Order.listBytes_nil,
    List.append_nil, List.append_assoc]

/-- A tree has as many bytes as its size says. -/
@[simp] theorem length_bytes (tree : Tree) : tree.bytes.length = tree.size := by
  induction tree with
  | empty => rfl
  | plain order => simp [size, Order.size]
  | seq first second firstHypothesis secondHypothesis =>
      simp [size, firstHypothesis, secondHypothesis]
  | skip test body bodyHypothesis =>
      simp [size, bodyHypothesis]
  | choose test body rest bodyHypothesis restHypothesis =>
      simp only [bytes_choose, List.length_append, Order.length_bytes_branch, size,
        bodyHypothesis, restHypothesis]
      omega
  | loop head test body headHypothesis bodyHypothesis =>
      simp only [bytes_loop, List.length_append, Order.length_bytes_branch, size,
        headHypothesis, bodyHypothesis]
      omega

/-- How the height of the stack changes from beginning to end. -/
def effect : Tree → Int
  | .empty => 0
  | .plain order => order.change
  | .seq first second => first.effect + second.effect
  | .skip test _ => test.change
  | .choose test _ rest => test.change + rest.effect
  | .loop head test _ => head.effect + test.change

/-- How much higher than at the beginning the stack gets. -/
def peak : Tree → Int
  | .empty => 0
  | .plain order => max 0 order.change
  | .seq first second => max first.peak (first.effect + second.peak)
  | .skip test body => max 0 (test.change + body.peak)
  | .choose test body rest => max 0 (test.change + max body.peak rest.peak)
  | .loop head test body => max head.peak (head.effect + test.change + body.peak)

/-- The peak counts from where the tree begins. -/
theorem peak_nonneg (tree : Tree) : 0 ≤ tree.peak := by
  induction tree <;> simp only [peak] <;> omega

/-- The stack ends no higher than it gets. -/
theorem effect_le_peak (tree : Tree) : tree.effect ≤ tree.peak := by
  induction tree with
  | empty => exact le_refl 0
  | plain order => exact le_max_right _ _
  | seq first second firstHypothesis secondHypothesis =>
      simp only [effect, peak]
      omega
  | skip test body bodyHypothesis =>
      have := body.peak_nonneg
      simp only [effect, peak]
      omega
  | choose test body rest bodyHypothesis restHypothesis =>
      simp only [effect, peak]
      omega
  | loop head test body headHypothesis bodyHypothesis =>
      have := body.peak_nonneg
      simp only [effect, peak]
      omega

/-- Each instruction puts at most one operand more on the stack, so the stack gets no
higher than there are bytes. -/
theorem effect_and_peak_le_size (tree : Tree) :
    tree.effect ≤ tree.size ∧ tree.peak ≤ tree.size := by
  induction tree with
  | empty => exact ⟨le_refl _, le_refl _⟩
  | plain order =>
      have change := order.change_le_one
      have size := order.size_pos
      simp only [effect, peak, Tree.size]
      omega
  | seq first second firstHypothesis secondHypothesis =>
      simp only [effect, peak, size]
      omega
  | skip test body bodyHypothesis =>
      have := test.change_nonpos
      simp only [effect, peak, size]
      omega
  | choose test body rest bodyHypothesis restHypothesis =>
      have := test.change_nonpos
      simp only [effect, peak, size]
      omega
  | loop head test body headHypothesis bodyHypothesis =>
      have := test.change_nonpos
      simp only [effect, peak, size]
      omega

/-- Parts that meet agree on the height of the stack. -/
def Balanced : Tree → Prop
  | .empty | .plain _ => True
  | .seq first second => first.Balanced ∧ second.Balanced
  | .skip _ body => body.Balanced ∧ body.effect = 0
  | .choose _ body rest => body.Balanced ∧ rest.Balanced ∧ body.effect = rest.effect
  | .loop head test body =>
    head.Balanced ∧ body.Balanced ∧ head.effect + test.change + body.effect = 0

/-- Whether the operands of all branches can hold their offsets. -/
def Fits : Tree → Prop
  | .empty | .plain _ => True
  | .seq first second => first.Fits ∧ second.Fits
  | .skip _ body => body.Fits ∧ 3 + body.size ≤ 32767
  | .choose _ body rest =>
    body.Fits ∧ rest.Fits ∧ 3 + body.size + 3 ≤ 32767 ∧ 3 + rest.size ≤ 32767
  | .loop head _ body =>
    head.Fits ∧ body.Fits ∧ 3 + body.size + 3 ≤ 32767 ∧ head.size + (3 + body.size) ≤ 32768

end Tree
end Compile
end Pictogram
