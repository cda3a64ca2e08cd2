import Pictogram.Proofs.Code.Tree

/-!
# Where the parts of a tree stand

The bytes of a tree at an address of some code are the bytes of its parts at
addresses of their own, with branches between them.  Each branch leads to the
beginning of a part or behind the tree.
-/

namespace Pictogram
namespace Compile

open Machine (Action Order Test)

/-- The bytes stand in the code from an address on. -/
def Stands (code : List UInt8) (address : Nat) (bytes : List UInt8) : Prop :=
  bytes <+: code.drop address

/-- Bytes in a row stand in the code just when each part stands where it should. -/
theorem stands_append
    {code : List UInt8}
    {address : Nat}
    {first second : List UInt8} :
    Stands code address (first ++ second) ↔
      Stands code address first ∧ Stands code (address + first.length) second := by
  constructor
  · rintro ⟨tail, whole⟩
    refine ⟨⟨second ++ tail, by rw [← whole, List.append_assoc]⟩, tail, ?_⟩
    rw [← List.drop_drop, ← whole, List.append_assoc, List.drop_left]
  · rintro ⟨⟨middle, whole⟩, tail, rest⟩
    refine ⟨tail, ?_⟩
    rw [← List.drop_drop, ← whole, List.drop_left] at rest
    rw [List.append_assoc, rest, whole]

/-- An instruction that stands in the code is read there as its action. -/
theorem Stands.read?
    {code : List UInt8}
    {address : Nat}
    {order : Order}
    {action : Action}
    (stands : Stands code address order.bytes)
    (means : order.action? = some action) :
    Action.read? (code.drop address) = some (action, order.size) := by
  obtain ⟨tail, whole⟩ := stands
  rw [← whole, order.read?_bytes means]

/-- A branch at an address, which leads to a target. -/
def Branches (code : List UInt8) (address : Nat) (test : Test) (target : Nat) : Prop :=
  Action.read? (code.drop address) = some (.branch test ((target : Int) - address), 3)

/-- A branch whose offset has 16 bits leads as far as the offset says. -/
theorem Stands.branches
    {code : List UInt8}
    {address target : Nat}
    {test : Test}
    {offset : Int}
    (stands : Stands code address (Order.branch test offset).bytes)
    (least : -32768 ≤ offset)
    (greatest : offset ≤ 32767)
    (leads : (target : Int) = address + offset) :
    Branches code address test target := by
  have offsetIs : (target : Int) - address = offset := by omega
  rw [Branches, offsetIs, stands.read? (Order.action?_branch test least greatest), Order.size,
    Order.length_bytes_branch]

namespace Tree

variable {code : List UInt8} {address : Nat} {test : Test} {head body rest first second : Tree}

theorem stands_seq :
    Stands code address (Tree.seq first second).bytes ↔
      Stands code address first.bytes ∧ Stands code (address + first.size) second.bytes := by
  rw [bytes_seq, stands_append, length_bytes]

/-- The branch of a skip leads to the end of its body. -/
theorem stands_skip
    (fits : (Tree.skip test body).Fits)
    (stands : Stands code address (Tree.skip test body).bytes) :
    Branches code address test (address + (3 + body.size)) ∧
      Stands code (address + 3) body.bytes := by
  rw [bytes_skip, stands_append, Order.length_bytes_branch] at stands
  have near := fits.2
  exact ⟨stands.1.branches (by omega) (by omega) (by omega), stands.2⟩

/-- The branch of a choice leads to the other part, and the one behind the body to the end. -/
theorem stands_choose
    (fits : (Tree.choose test body rest).Fits)
    (stands : Stands code address (Tree.choose test body rest).bytes) :
    Branches code address test (address + (3 + body.size + 3)) ∧
      Stands code (address + 3) body.bytes ∧
      Branches code (address + (3 + body.size)) .always
        (address + (3 + body.size + (3 + rest.size))) ∧
      Stands code (address + (3 + body.size + 3)) rest.bytes := by
  rw [bytes_choose, stands_append, stands_append, stands_append, Order.length_bytes_branch,
    Order.length_bytes_branch, length_bytes] at stands
  obtain ⟨testStands, bodyStands, gotoStands, restStands⟩ := stands
  obtain ⟨-, -, near, restNear⟩ := fits
  simp only [Nat.add_assoc] at gotoStands restStands ⊢
  exact ⟨testStands.branches (by omega) (by omega) (by omega), bodyStands,
    gotoStands.branches (by omega) (by omega) (by omega), restStands⟩

/-- The branch behind the head of a loop leads to its end, and the last one back to the head. -/
theorem stands_loop
    (fits : (Tree.loop head test body).Fits)
    (stands : Stands code address (Tree.loop head test body).bytes) :
    Stands code address head.bytes ∧
      Branches code (address + head.size) test (address + (head.size + (3 + body.size + 3))) ∧
      Stands code (address + (head.size + 3)) body.bytes ∧
      Branches code (address + (head.size + (3 + body.size))) .always address := by
  rw [bytes_loop, stands_append, stands_append, stands_append, Order.length_bytes_branch,
    length_bytes, length_bytes] at stands
  obtain ⟨headStands, testStands, bodyStands, gotoStands⟩ := stands
  obtain ⟨-, -, near, back⟩ := fits
  simp only [Nat.add_assoc] at testStands bodyStands gotoStands ⊢
  exact ⟨headStands, testStands.branches (by omega) (by omega) (by omega), bodyStands,
    gotoStands.branches (by omega) (by omega) (by omega)⟩

end Tree
end Compile
end Pictogram
