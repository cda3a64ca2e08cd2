import Pictogram.Proofs.Machine.Flow

/-!
# Instructions in a row

Whole instructions that stand one behind another, from address 0 on, are read back from
their bytes.
-/

namespace Pictogram
namespace Machine

/-- Whole instructions, one behind another from an address on. -/
def Contiguous : Nat → List Instruction → Prop
  | _, [] => True
  | address, first :: rest =>
    first.address = address ∧ first.operands.length = first.opcode.operandSize ∧
      Contiguous (address + first.size) rest

namespace Contiguous

variable {address : Nat} {first second : List Instruction}

/-- Lists of instructions follow one another if the second begins where the first ends. -/
theorem append_iff :
    Contiguous address (first ++ second) ↔
      Contiguous address first ∧
        Contiguous (address + (first.flatMap Instruction.bytes).length) second := by
  induction first generalizing address with
  | nil => simp [Contiguous]
  | cons instruction rest inductionHypothesis =>
      have size : instruction.bytes.length = instruction.size := by
        simp only [Instruction.bytes, Instruction.size, List.length_cons]
        omega
      simp only [List.cons_append, Contiguous, inductionHypothesis, List.flatMap_cons,
        List.length_append, size, Nat.add_assoc, and_assoc]

/-- Instructions in a row are placed orders. -/
theorem eq_place (contiguous : Contiguous address first) :
    ∃ orders, first = Order.place address orders := by
  induction first generalizing address with
  | nil => exact ⟨[], rfl⟩
  | cons instruction rest inductionHypothesis =>
      obtain ⟨rfl, complete, later⟩ := contiguous
      obtain ⟨orders, isPlaced⟩ := inductionHypothesis later
      let order : Order := ⟨instruction.opcode, instruction.operands, complete⟩
      have size : instruction.size = order.size := (order.size_standing instruction.address)
      refine ⟨order :: orders, ?_⟩
      rw [Order.place, isPlaced, size]
      rfl

/-- Instructions without a gap are read back from their bytes. -/
theorem decode_eq (contiguous : Contiguous 0 first) :
    decode (first.flatMap Instruction.bytes) = first := by
  obtain ⟨orders, rfl⟩ := contiguous.eq_place
  rw [Order.flatMap_bytes_place, Order.decode_listBytes]

/-- An instruction that stands in a row ends within it. -/
theorem address_lt
    (contiguous : Contiguous 0 first)
    {instruction : Instruction}
    (present : instruction ∈ first) :
    instruction.address < (first.flatMap Instruction.bytes).length := by
  obtain ⟨orders, rfl⟩ := contiguous.eq_place
  rw [Order.flatMap_bytes_place]
  simpa using Order.address_lt present

/-- The addresses of instructions without a gap increase. -/
theorem pairwise (contiguous : Contiguous address first) :
    (first.map (·.address)).Pairwise (· < ·) := by
  obtain ⟨orders, rfl⟩ := contiguous.eq_place
  exact (Order.pairwise_place orders address).1

end Contiguous
end Machine
end Pictogram
