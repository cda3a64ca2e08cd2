import Pictogram.Proofs.Machine.Listing

/-!
# Decoding any bytes

Any bytes are instructions in a row and a remainder at the front of which no whole instruction
stands.  Decoding gives these instructions, and there is no longer row to be found in the bytes.
What a branch leads to is settled by its two operand bytes.
-/

namespace Pictogram

/-- The integer that two bytes stand for, of which the first has the sign. -/
def Bytes.signedWord (first second : UInt8) : Int :=
  256 * first.toInt8.toInt + second.toNat

/-- Two bytes are read as a word with a sign. -/
theorem Bytes.toInt_pair (first second : UInt8) :
    toInt [first, second] = signedWord first second := by
  have firstSmall := first.toNat_lt
  have secondSmall := second.toNat_lt
  have sign : first.toInt8.toInt = Int.bmod first.toNat 256 := BitVec.toInt_eq_toNat_bmod _
  have word : toInt [first, second] = Int.bmod (256 * first.toNat + second.toNat : Nat) 65536 := by
    simp [toInt, toNat]
  rw [word, signedWord, sign, Int.bmod_def, Int.bmod_def]
  split <;> split <;> omega

namespace Machine

namespace Opcode

/-- A byte is read as the one opcode that has it. -/
theorem ofByte?_eq_some {byte : UInt8} {opcode : Opcode} :
    ofByte? byte = some opcode ↔ opcode.byte = byte := by
  constructor
  · intro found
    simpa using List.find?_some found
  · rintro rfl
    exact ofByte?_byte opcode

/-- A byte is not read if no opcode has it. -/
theorem ofByte?_eq_none {byte : UInt8} :
    ofByte? byte = none ↔ ∀ opcode : Opcode, opcode.byte ≠ byte := by
  simp only [Option.eq_none_iff_forall_ne_some, ne_eq, ofByte?_eq_some]

end Opcode

/-- No whole instruction stands at the front of the bytes. -/
inductive NoInstruction : List UInt8 → Prop
  | empty : NoInstruction []
  /-- The first byte is that of no opcode. -/
  | unknown {byte : UInt8} {rest : List UInt8} :
      (∀ opcode : Opcode, opcode.byte ≠ byte) → NoInstruction (byte :: rest)
  /-- The bytes are fewer than those of the instruction that they begin. -/
  | cutOff {opcode : Opcode} {rest : List UInt8} :
      (opcode.byte :: rest).length < 1 + opcode.operandSize → NoInstruction (opcode.byte :: rest)

/-- Where no whole instruction stands, none is read. -/
theorem NoInstruction.read?_eq_none
    {bytes : List UInt8}
    (nothing : NoInstruction bytes)
    (address : Nat) :
    Instruction.read? address bytes = none := by
  cases nothing with
  | empty => rfl
  | unknown isNone => simp [Instruction.read?, Opcode.ofByte?_eq_none.mpr isNone]
  | cutOff short =>
      simp only [List.length_cons] at short
      simp only [Instruction.read?, Opcode.ofByte?_byte, List.length_take, ite_eq_right_iff]
      omega

/-- What bytes begin with: nothing that can be read, or a whole instruction. -/
theorem noInstruction_or_order (bytes : List UInt8) :
    NoInstruction bytes ∨ ∃ (order : Order) (rest : List UInt8), bytes = order.bytes ++ rest := by
  cases bytes with
  | nil => exact .inl .empty
  | cons byte rest =>
      cases found : Opcode.ofByte? byte with
      | none => exact .inl (.unknown (Opcode.ofByte?_eq_none.mp found))
      | some opcode =>
          obtain rfl := Opcode.ofByte?_eq_some.mp found
          by_cases whole : opcode.operandSize ≤ rest.length
          · refine .inr ⟨⟨opcode, rest.take opcode.operandSize, ?_⟩,
              rest.drop opcode.operandSize, ?_⟩
            · rw [List.length_take, Nat.min_eq_left whole]
            · simp [Order.bytes]
          · refine .inl (.cutOff ?_)
            simp only [List.length_cons]
            omega

namespace Order

/-- Any bytes are those of instructions and a remainder that begins with none. -/
theorem exists_listBytes (bytes : List UInt8) :
    ∃ orders rest, bytes = listBytes orders ++ rest ∧ NoInstruction rest := by
  rcases noInstruction_or_order bytes with nothing | ⟨order, rest, split⟩
  · exact ⟨[], bytes, rfl, nothing⟩
  · obtain ⟨orders, last, isRest, nothing⟩ := exists_listBytes rest
    refine ⟨order :: orders, last, ?_, nothing⟩
    rw [listBytes_cons, List.append_assoc, ← isRest, split]
termination_by bytes.length
decreasing_by
  rw [split, List.length_append]
  exact Nat.lt_add_of_pos_left order.size_pos

/-- Placed instructions follow one another without a gap. -/
theorem contiguous_place (orders : List Order) (address : Nat) :
    Contiguous address (place address orders) := by
  induction orders generalizing address with
  | nil => trivial
  | cons order rest inductionHypothesis =>
      refine ⟨rfl, order.complete, ?_⟩
      rw [size_standing]
      exact inductionHypothesis _

end Order

namespace Contiguous

/-- Instructions of a row are whole. -/
theorem complete
    {address : Nat}
    {instructions : List Instruction}
    (contiguous : Contiguous address instructions) :
    ∀ instruction ∈ instructions,
      instruction.operands.length = instruction.opcode.operandSize := by
  obtain ⟨orders, rfl⟩ := contiguous.eq_place
  intro instruction present
  obtain ⟨order, -, there, rfl⟩ := Order.mem_place present
  exact order.complete

/-- A row that the bytes begin with is decoded before anything else. -/
theorem isPrefix_decode
    {instructions : List Instruction}
    {code : List UInt8}
    (contiguous : Contiguous 0 instructions)
    (begins : instructions.flatMap Instruction.bytes <+: code) :
    instructions <+: decode code := by
  obtain ⟨orders, rfl⟩ := contiguous.eq_place
  rw [Order.flatMap_bytes_place] at begins
  obtain ⟨tail, rfl⟩ := begins
  obtain ⟨more, rest, rfl, nothing⟩ := Order.exists_listBytes tail
  rw [← List.append_assoc, ← Order.listBytes_append,
    Order.decode_listBytes_append _ nothing.read?_eq_none, Order.place_append]
  exact List.prefix_append _ _

end Contiguous

namespace Instruction

/-- The address that the operands of a branch name, if it is one. -/
theorem target?_eq_some_iff
    {instruction : Instruction}
    (isBranch : instruction.opcode.isBranch)
    (target : Nat) :
    instruction.target? = some target ↔
      (target : Int) = instruction.address + Bytes.toInt instruction.operands := by
  rw [target?, if_pos isBranch]
  split
  · rename_i place found
    rw [found, Option.some.injEq, Int.ofNat_eq_natCast, Int.natCast_inj, eq_comm]
  · rename_i below found
    rw [found]
    simp

/-- A branch has no target just when it leads to before the code. -/
theorem target?_eq_none_iff
    {instruction : Instruction}
    (isBranch : instruction.opcode.isBranch) :
    instruction.target? = none ↔
      (instruction.address : Int) + Bytes.toInt instruction.operands < 0 := by
  simp only [Option.eq_none_iff_forall_ne_some, ne_eq, target?_eq_some_iff isBranch]
  constructor
  · intro noTarget
    by_contra notBelow
    exact noTarget _ (Int.toNat_of_nonneg (Int.not_lt.mp notBelow))
  · intro below target isTarget
    omega

end Instruction

/-- Decoding any bytes gives whole instructions in a row from address 0 on, which the bytes begin
with, and what is left begins with no whole instruction: every such row is a part of that row.
A branch has two operand bytes, and it leads nowhere exactly if their offset leads below
address 0. -/
theorem decode_maximal (code : List UInt8) :
    Contiguous 0 (decode code) ∧
    (∃ rest, code = (decode code).flatMap Instruction.bytes ++ rest ∧ NoInstruction rest) ∧
    (∀ instructions, Contiguous 0 instructions →
      instructions.flatMap Instruction.bytes <+: code → instructions <+: decode code) ∧
    ∀ instruction ∈ decode code,
      instruction.operands.length = instruction.opcode.operandSize ∧
      (instruction.opcode.isBranch = false → instruction.target? = none) ∧
      (instruction.opcode.isBranch → ∃ first second, instruction.operands = [first, second] ∧
        let target : Int := instruction.address + Bytes.signedWord first second
        (instruction.target? = none ↔ target < 0) ∧
        ∀ address : Nat, instruction.target? = some address ↔ address = target) := by
  have contiguous : Contiguous 0 (decode code) := by
    obtain ⟨orders, rest, rfl, nothing⟩ := Order.exists_listBytes code
    rw [Order.decode_listBytes_append orders nothing.read?_eq_none]
    exact Order.contiguous_place orders 0
  refine ⟨contiguous, ?_, fun instructions => Contiguous.isPrefix_decode, ?_⟩
  · obtain ⟨orders, rest, rfl, nothing⟩ := Order.exists_listBytes code
    refine ⟨rest, ?_, nothing⟩
    rw [Order.decode_listBytes_append orders nothing.read?_eq_none, Order.flatMap_bytes_place]
  · intro instruction present
    have complete := contiguous.complete instruction present
    refine ⟨complete, fun noBranch => by simp [Instruction.target?, noBranch], fun isBranch => ?_⟩
    rw [Opcode.operandSize_of_isBranch isBranch] at complete
    obtain ⟨first, second, both⟩ := List.length_eq_two.mp complete
    refine ⟨first, second, both, ?_⟩
    rw [← Bytes.toInt_pair, ← both]
    exact ⟨Instruction.target?_eq_none_iff isBranch, Instruction.target?_eq_some_iff isBranch⟩

end Machine
end Pictogram
