import Pictogram.Proofs.Machine.Execution
import Mathlib.Data.List.Nodup

/-!
# The flow graph of a method

An instruction leads to the one behind it, to the target of its branch, or to
both.  A walk follows these ways from one address to another, whatever the tests
of the branches would say.  What an instruction uses, a local variable or a
constant, is read off its opcode and its operands.
-/

namespace Pictogram
namespace Machine

/-- Whether the machine may go on with the instruction behind. -/
def Opcode.fallsThrough : Opcode → Bool
  | .goto | .leave => false
  | _ => true

namespace Instruction

/-- The bytes of an instruction. -/
def bytes (instruction : Instruction) : List UInt8 :=
  instruction.opcode.byte :: instruction.operands

/-- After an instruction the machine may be at an address. -/
def LeadsTo (instruction : Instruction) (address : Nat) : Prop :=
  (instruction.opcode.fallsThrough ∧ address = instruction.address + instruction.size) ∨
    instruction.target? = some address

/-- The local variable that an instruction loads or adds to. -/
def reads? (instruction : Instruction) : Option UInt8 :=
  match instruction.opcode with
  | .loadAt _ slot => some (UInt8.ofNat slot)
  | .load _ | .increment => instruction.operands.head?
  | _ => none

/-- The local variable that an instruction stores into. -/
def stores? (instruction : Instruction) : Option UInt8 :=
  match instruction.opcode with
  | .storeAt _ slot => some (UInt8.ofNat slot)
  | .store _ => instruction.operands.head?
  | _ => none

/-- The index of the constant that an instruction names. -/
def index? (instruction : Instruction) : Option UInt16 :=
  match instruction.opcode with
  | .ldc | .ldcWide | .getStatic | .invokeVirtual | .invokeSpecial =>
    some (UInt16.ofNat (Bytes.toNat instruction.operands))
  | _ => none

end Instruction

/-- The index of the constant that an action names. -/
def Action.index? : Action → Option UInt16
  | .constant index | .field index | .call index => some index
  | _ => none

/-- The local variable that an action reads. -/
def Action.reads? : Action → Option UInt8
  | .load _ slot | .increment slot _ => some slot
  | _ => none

/-- The local variable that an action stores into. -/
def Action.stores? : Action → Option UInt8
  | .store _ slot => some slot
  | _ => none

open Pictogram.Class (Constant) in
/-- Whether an instruction may name a constant. -/
def Opcode.mayName : Opcode → Constant → Bool
  | .ldc, .integer _ | .ldc, .stringRef _ => true
  | .ldcWide, .integer _ | .ldcWide, .stringRef _ => true
  | .getStatic, .fieldRef .. => true
  | .invokeVirtual, .methodRef .. | .invokeSpecial, .methodRef .. => true
  | _, _ => false

/-- A way along the instructions of some code, from one address to another. -/
inductive Walk (code : List UInt8) : Nat → List Instruction → Nat → Prop
  | stay {address : Nat} : Walk code address [] address
  | step {instruction : Instruction} {next last : Nat} {rest : List Instruction} :
      instruction ∈ decode code →
      instruction.LeadsTo next →
      Walk code next rest last →
      Walk code instruction.address (instruction :: rest) last

namespace Walk

variable {code : List UInt8} {first middle last : Nat} {passed further : List Instruction}

/-- Two walks that meet are one walk. -/
theorem append
    (walk : Walk code first passed middle)
    (walkOn : Walk code middle further last) :
    Walk code first (passed ++ further) last := by
  induction walk with
  | stay => exact walkOn
  | step present leads _ inductionHypothesis =>
      exact .step present leads (inductionHypothesis walkOn)

end Walk

/-- There is a walk on which no instruction is barred. -/
def WalksTo (code : List UInt8) (barred : Instruction → Bool) (first last : Nat) : Prop :=
  ∃ passed, Walk code first passed last ∧ ∀ instruction ∈ passed, barred instruction = false

namespace WalksTo

variable {code : List UInt8} {barred : Instruction → Bool} {first middle last : Nat}

theorem refl (address : Nat) : WalksTo code barred address address :=
  ⟨[], .stay, by simp⟩

theorem trans
    (earlier : WalksTo code barred first middle)
    (later : WalksTo code barred middle last) :
    WalksTo code barred first last := by
  obtain ⟨passed, walk, free⟩ := earlier
  obtain ⟨further, walkOn, freeOn⟩ := later
  exact ⟨passed ++ further, walk.append walkOn, List.forall_mem_append.mpr ⟨free, freeOn⟩⟩

/-- An instruction that is not barred is walked past. -/
theorem single
    {instruction : Instruction}
    (present : instruction ∈ decode code)
    (leads : instruction.LeadsTo last)
    (free : barred instruction = false) :
    WalksTo code barred instruction.address last :=
  ⟨[instruction], .step present leads .stay, by simpa using free⟩

/-- What holds at the beginning, and is kept by every instruction that is not barred, holds
at the end. -/
theorem invariant
    {holds : Nat → Prop}
    (walks : WalksTo code barred first last)
    (begins : holds first)
    (kept : ∀ instruction ∈ decode code, barred instruction = false → holds instruction.address →
      ∀ next, instruction.LeadsTo next → holds next) :
    holds last := by
  obtain ⟨passed, walk, free⟩ := walks
  induction walk with
  | stay => exact begins
  | @step instruction next _ _ present leads _ inductionHypothesis =>
      obtain ⟨firstFree, restFree⟩ := List.forall_mem_cons.mp free
      exact inductionHypothesis (kept instruction present firstFree begins next leads) restFree

end WalksTo

namespace Order

variable (order : Order) (address : Nat)

@[simp] theorem address_standing : (order.standing address).address = address := rfl

@[simp] theorem opcode_standing : (order.standing address).opcode = order.opcode := rfl

@[simp] theorem operands_standing : (order.standing address).operands = order.operands := rfl

@[simp] theorem bytes_standing : (order.standing address).bytes = order.bytes := rfl

@[simp] theorem size_standing : (order.standing address).size = order.size := by
  simp only [Instruction.size, standing, size, bytes, List.length_cons]
  omega

/-- An instruction uses what its action uses. -/
theorem uses_standing
    {action : Action}
    (means : order.action? = some action) :
    (order.standing address).reads? = action.reads? ∧
      (order.standing address).stores? = action.stores? ∧
      (order.standing address).index? = action.index? := by
  obtain ⟨opcode, operands, complete⟩ := order
  simp only [action?] at means
  unfold Opcode.action? at means
  split at means
  · cases opcode <;> cases means <;> exact ⟨rfl, rfl, rfl⟩
  · -- An index of one byte is widened.
    cases opcode <;> cases means <;>
      simp [standing, Instruction.reads?, Instruction.stores?, Instruction.index?, Action.reads?,
        Action.stores?, Action.index?, Bytes.toNat]
  · cases opcode <;> cases means <;> exact ⟨rfl, rfl, rfl⟩
  · cases means

/-- Every placed instruction is one of the list. -/
theorem mem_place
    {orders : List Order}
    {address : Nat}
    {instruction : Instruction}
    (present : instruction ∈ place address orders) :
    ∃ order ∈ orders, ∃ there, instruction = order.standing there := by
  induction orders generalizing address with
  | nil => cases present
  | cons order rest inductionHypothesis =>
      rcases List.mem_cons.mp present with rfl | later
      · exact ⟨order, List.mem_cons_self, address, rfl⟩
      · obtain ⟨found, isFound, there⟩ := inductionHypothesis later
        exact ⟨found, List.mem_cons_of_mem _ isFound, there⟩

/-- The bytes of instructions in a row are those that they are read from. -/
theorem flatMap_bytes_place (orders : List Order) (address : Nat) :
    (place address orders).flatMap Instruction.bytes = listBytes orders := by
  induction orders generalizing address with
  | nil => rfl
  | cons order rest inductionHypothesis => simp [place, inductionHypothesis]

/-- Instructions stand at increasing addresses. -/
theorem pairwise_place (orders : List Order) (address : Nat) :
    ((place address orders).map (·.address)).Pairwise (· < ·) ∧
      ∀ other ∈ (place address orders).map (·.address), address ≤ other := by
  induction orders generalizing address with
  | nil => simp [place]
  | cons order rest inductionHypothesis =>
      obtain ⟨increasing, above⟩ := inductionHypothesis (address + order.size)
      have positive := order.size_pos
      have behind : ∀ other ∈ (place (address + order.size) rest).map (·.address),
          address < other := by
        intro other present
        have := above other present
        omega
      refine ⟨List.pairwise_cons.mpr ⟨behind, increasing⟩, ?_⟩
      intro other present
      rcases List.mem_cons.mp present with rfl | later
      · exact Nat.le_refl _
      · exact Nat.le_of_lt (behind other later)

/-- Instructions are placed before the end of their bytes. -/
theorem address_lt
    {orders : List Order}
    {address : Nat}
    {instruction : Instruction}
    (present : instruction ∈ place address orders) :
    instruction.address < address + (listBytes orders).length := by
  induction orders generalizing address with
  | nil => cases present
  | cons order rest inductionHypothesis =>
      have positive := order.size_pos
      rw [listBytes_cons, List.length_append]
      rcases List.mem_cons.mp present with rfl | later
      · simp only [address_standing, size] at positive ⊢
        omega
      · have := inductionHypothesis later
        simp only [size] at this
        omega

/-- Instructions in a row stand at different addresses. -/
theorem eq_of_address_eq
    {orders : List Order}
    {address : Nat}
    {first second : Instruction}
    (firstPresent : first ∈ place address orders)
    (secondPresent : second ∈ place address orders)
    (same : first.address = second.address) :
    first = second := by
  have increasing := (pairwise_place orders address).1
  have distinct := increasing.imp fun less => Nat.ne_of_lt less
  exact List.inj_on_of_nodup_map distinct firstPresent secondPresent same

end Order
end Machine
end Pictogram
