import Mathlib.Data.List.Induction
import Pictogram.Proofs.Code.Operation
import Pictogram.Proofs.Machine.Listing

/-!
# Code read back as it was written

Whatever the order in which branches are written and filled in, the bytes of the code are read
back as the instructions that were asked for, each at the address where it was written, and each
branch leads where it was to lead.
-/

namespace Pictogram
namespace Compile

open Pictogram.Class (Pool)
open Machine (Opcode Order Instruction Contiguous decode)

namespace Code

/-! ## Steps one after another -/

/-- The steps of operations. -/
def steps (body : Body) : List Operation → List Step
  | [] => []
  | operation :: rest => ⟨operation, body⟩ :: steps (Step.after ⟨operation, body⟩) rest

/-- The method after operations. -/
def final (body : Body) (operations : List Operation) : Body :=
  operations.foldl (fun body operation => Step.after ⟨operation, body⟩) body

/-- The steps of operations in a row are the steps of the first and then those of the others. -/
theorem steps_append (body : Body) (first second : List Operation) :
    steps body (first ++ second) = steps body first ++ steps (final body first) second := by
  induction first generalizing body with
  | nil => rfl
  | cons operation rest inductionHypothesis =>
      rw [List.cons_append, steps, steps, inductionHypothesis]
      rfl

theorem final_concat (body : Body) (operations : List Operation) (last : Operation) :
    final body (operations ++ [last]) = Step.after ⟨last, final body operations⟩ := by
  simp [final]

/-- The instructions that steps have written, in order. -/
def written (done : List Step) : List Written := done.filterMap Step.written?

/-- Where the code ended each time when a branch was filled in. -/
def fillings (done : List Step) (branch : Jump) : List Nat :=
  done.filterMap (Step.fills? branch)

namespace Written

/-- The address that a branch has been asked to lead to. -/
def goal? (done : List Step) (written : Written) : Option Nat :=
  match written.operand with
  | .bytes _ => none
  | .toward target => some target
  | .ahead => (fillings done ⟨written.address⟩).getLast?

/-- The operand bytes. -/
def operands (done : List Step) (written : Written) : List UInt8 :=
  match written.operand, written.goal? done with
  | .bytes given, _ => given
  | _, some target => Bytes.signed 2 ((target : Int) - written.address)
  | _, none => [0xFF, 0xFF]

/-- The instruction. -/
def instruction (done : List Step) (written : Written) : Instruction :=
  ⟨written.address, written.opcode, written.operands done⟩

end Written

/-- The instructions that steps have written, with the branches filled in. -/
def listing (done : List Step) : List Instruction :=
  (written done).map (Written.instruction done)

/-- Operations used as they are meant to be. -/
structure WellUsed (done : List Step) : Prop where
  /-- Instructions are complete. -/
  complete : ∀ step ∈ done, step.operation.Complete
  /-- A branch is patched only after it was given. -/
  given : ∀ earlier step later branch, done = earlier ++ step :: later →
    step.operation = .patch branch → ∃ jump ∈ earlier, jump.given? = some branch
  /-- Every branch that was given is filled in once. -/
  once : ∀ step ∈ done, ∀ branch, step.given? = some branch →
    ∃ position, fillings done branch = [position]

/-! ## What steps leave behind -/

theorem written_concat (done : List Step) (last : Step) :
    written (done ++ [last]) = written done ++ last.written?.toList := by
  cases wrote : last.written? <;> simp [written, wrote]

theorem fillings_concat (done : List Step) (last : Step) (branch : Jump) :
    fillings (done ++ [last]) branch = fillings done branch ++ (last.fills? branch).toList := by
  cases filled : last.fills? branch <;> simp [fillings, filled]

/-- An instruction depends on the steps only by what fills it in. -/
theorem Written.instruction_congr
    {written : Written}
    {done more : List Step}
    (same : fillings done ⟨written.address⟩ = fillings more ⟨written.address⟩) :
    written.instruction done = written.instruction more := by
  simp only [instruction, operands, goal?, same]

/-- A branch that waits for its offset has two operand bytes. -/
theorem Written.operands_ahead (done : List Step) (address : Nat) (opcode : Opcode) :
    ∃ first second, operands done ⟨address, opcode, .ahead⟩ = [first, second] := by
  refine List.length_eq_two.mp ?_
  unfold operands
  split <;> simp_all

/-- Filling in a branch of a row changes its operands. -/
theorem redirect_row
    {front : List Instruction}
    {branch : Jump}
    (place : branch.address = (front.flatMap Instruction.bytes).length)
    {opcode : Opcode}
    {first second : UInt8}
    {back : List Instruction}
    {target : Nat} :
    redirect ((front ++ ⟨branch.address, opcode, [first, second]⟩ :: back).flatMap
        Instruction.bytes).toArray branch target =
      ((front ++ ⟨branch.address, opcode,
        Bytes.signed 2 ((target : Int) - branch.address)⟩ :: back).flatMap
          Instruction.bytes).toArray := by
  obtain ⟨address⟩ := branch
  obtain rfl := place
  have filled := redirect_operands (front.flatMap Instruction.bytes).toArray opcode.byte
    first second (back.flatMap Instruction.bytes) target
  simpa [Instruction.bytes] using filled

/-- The code is what the listing of the steps says. -/
structure Holds (done : List Step) (code : Code) : Prop where
  /-- The instructions stand in a row. -/
  contiguous : Contiguous 0 (listing done)
  /-- The bytes are theirs. -/
  bytes_eq : code.bytes.toList = (listing done).flatMap Instruction.bytes
  /-- Only branches that wait for it have been filled in. -/
  asked : ∀ branch, fillings done branch ≠ [] →
    ∃ opcode, ⟨branch.address, opcode, .ahead⟩ ∈ written done

namespace Holds

variable {done : List Step} {last : Step}

/-- Every instruction that was written stands inside the code. -/
theorem address_lt
    {code : Code}
    (holds : Holds done code)
    {entry : Written}
    (present : entry ∈ written done) :
    entry.address < code.position := by
  have inListing : entry.instruction done ∈ listing done := List.mem_map_of_mem present
  have below := holds.contiguous.address_lt inListing
  rw [← holds.bytes_eq, Array.length_toList] at below
  exact below

/-- A step that changes no code keeps the code as listed. -/
theorem idle
    (holds : Holds done last.before.code)
    (idle : last.Idle) :
    Holds (done ++ [last]) last.after.code := by
  have sameWritten : written (done ++ [last]) = written done := by
    simp [written_concat, idle.written]
  have sameFillings (branch : Jump) : fillings (done ++ [last]) branch = fillings done branch := by
    simp [fillings_concat, idle.fills]
  have sameListing : listing (done ++ [last]) = listing done := by
    rw [listing, sameWritten]
    exact List.map_congr_left fun entry _ => Written.instruction_congr (sameFillings _)
  exact
    { contiguous := sameListing ▸ holds.contiguous
      bytes_eq := by rw [idle.bytes, sameListing, holds.bytes_eq]
      asked := by
        intro branch filled
        rw [sameFillings] at filled
        rw [sameWritten]
        exact holds.asked branch filled }

/-- A step that writes an instruction puts it at the end of the listing. -/
theorem writes
    {opcode : Opcode}
    {operand : Operand}
    (holds : Holds done last.before.code)
    (writes : last.Writes opcode operand) :
    Holds (done ++ [last]) last.after.code := by
  let entry : Written := ⟨last.before.code.position, opcode, operand⟩
  have longer : written (done ++ [last]) = written done ++ [entry] := by
    simp [written_concat, writes.written, entry]
  have sameFillings (branch : Jump) : fillings (done ++ [last]) branch = fillings done branch := by
    simp [fillings_concat, writes.fills]
  have unfilled : fillings done ⟨last.before.code.position⟩ = [] := by
    by_contra filled
    obtain ⟨_, present⟩ := holds.asked _ filled
    exact absurd (holds.address_lt present) (Nat.lt_irrefl _)
  have instruction : entry.instruction (done ++ [last]) =
      ⟨last.before.code.position, opcode, operand.first last.before.code.position⟩ := by
    cases operand <;>
      simp [entry, Written.instruction, Written.operands, Written.goal?, Operand.first,
        sameFillings, unfilled]
  have longerListing : listing (done ++ [last]) = listing done ++
      [⟨last.before.code.position, opcode, operand.first last.before.code.position⟩] := by
    rw [listing, longer, List.map_append, List.map_singleton, instruction]
    refine congrArg (· ++ _) ?_
    exact List.map_congr_left fun entry _ => Written.instruction_congr (sameFillings _)
  have place : last.before.code.position =
      0 + ((listing done).flatMap Instruction.bytes).length := by
    rw [← holds.bytes_eq, Array.length_toList, Nat.zero_add]
    rfl
  exact
    { contiguous := by
        rw [longerListing]
        exact Contiguous.append_iff.mpr
          ⟨holds.contiguous, place, writes.complete, trivial⟩
      bytes_eq := by
        rw [writes.bytes, longerListing, List.flatMap_append, ← holds.bytes_eq]
        simp [Instruction.bytes]
      asked := by
        intro branch filled
        rw [sameFillings] at filled
        obtain ⟨opcode, present⟩ := holds.asked branch filled
        exact ⟨opcode, by rw [longer]; exact List.mem_append_left _ present⟩ }

/-- The other instructions stand at other addresses. -/
theorem apart
    {code : Code}
    (holds : Holds done code)
    {entry : Written}
    {front back : List Written}
    (split : written done = front ++ entry :: back) :
    ∀ other ∈ front ++ back, other.address ≠ entry.address := by
  have addresses : (listing done).map (·.address) = (written done).map (·.address) := by
    rw [listing, List.map_map]
    rfl
  have increasing := holds.contiguous.pairwise
  rw [addresses, split, List.map_append, List.map_cons, List.pairwise_append,
    List.pairwise_cons] at increasing
  obtain ⟨-, ⟨behind, -⟩, ahead⟩ := increasing
  intro other present
  rcases List.mem_append.mp present with inFront | inBack
  · exact Nat.ne_of_lt (ahead _ (List.mem_map_of_mem inFront) _ List.mem_cons_self)
  · exact Nat.ne_of_gt (behind _ (List.mem_map_of_mem inBack))

/-- Filling in a branch changes one instruction of the listing, and its two operand bytes. -/
theorem fills
    {branch : Jump}
    {opcode : Opcode}
    (holds : Holds done last.before.code)
    (fills : last.Fills branch)
    (waits : ⟨branch.address, opcode, .ahead⟩ ∈ written done) :
    Holds (done ++ [last]) last.after.code := by
  obtain ⟨front, back, split⟩ := List.append_of_mem waits
  have sameWritten : written (done ++ [last]) = written done := by
    simp [written_concat, fills.written]
  have filled (other : Jump) : fillings (done ++ [last]) other = fillings done other ++
      if branch = other then [last.before.code.position] else [] := by
    rw [fillings_concat, fills.fills]
    split <;> rfl
  have same : ∀ entry ∈ front ++ back,
      Written.instruction (done ++ [last]) entry = Written.instruction done entry := by
    intro entry present
    refine Written.instruction_congr ?_
    rw [filled, if_neg, List.append_nil]
    rintro rfl
    exact holds.apart split entry present rfl
  have leads : Written.instruction (done ++ [last]) ⟨branch.address, opcode, .ahead⟩ =
      ⟨branch.address, opcode,
        Bytes.signed 2 ((last.before.code.position : Int) - branch.address)⟩ := by
    simp [Written.instruction, Written.operands, Written.goal?, filled]
  obtain ⟨first, second, old⟩ := Written.operands_ahead done branch.address opcode
  -- The listing before and after, cut at the branch.
  have before : listing done = front.map (Written.instruction done) ++
      ⟨branch.address, opcode, [first, second]⟩ :: back.map (Written.instruction done) := by
    rw [listing, split, List.map_append, List.map_cons, ← old]
    rfl
  have after : listing (done ++ [last]) = front.map (Written.instruction done) ++
      ⟨branch.address, opcode,
        Bytes.signed 2 ((last.before.code.position : Int) - branch.address)⟩ ::
        back.map (Written.instruction done) := by
    rw [listing, sameWritten, split, List.map_append, List.map_cons, leads,
      List.map_congr_left fun entry inFront => same entry (List.mem_append_left _ inFront),
      List.map_congr_left fun entry inBack => same entry (List.mem_append_right _ inBack)]
  have contiguous := holds.contiguous
  rw [before, Contiguous.append_iff] at contiguous
  obtain ⟨frontRow, atBranch, complete, backRow⟩ := contiguous
  exact
    { contiguous := by
        rw [after, Contiguous.append_iff]
        refine ⟨frontRow, atBranch, (Bytes.length_signed 2 _).trans complete, ?_⟩
        simpa [Instruction.size] using backRow
      bytes_eq := by
        have place : branch.address =
            ((front.map (Written.instruction done)).flatMap Instruction.bytes).length := by
          rw [← Nat.zero_add (List.length _)]
          exact atBranch
        rw [fills.bytes, ← last.before.code.bytes.toArray_toList, holds.bytes_eq, before, after,
          redirect_row place]
      asked := by
        intro other isFilled
        rw [sameWritten]
        by_cases isBranch : branch = other
        · subst isBranch
          exact ⟨opcode, waits⟩
        · rw [filled, if_neg isBranch, List.append_nil] at isFilled
          exact holds.asked other isFilled }

end Holds

/-! ## The whole run -/

/-- Whatever branches are filled in between, the code stays what the listing says. -/
theorem holds_final
    (pool : Pool)
    (operations : List Operation)
    (complete : ∀ step ∈ steps (.empty pool) operations, step.operation.Complete)
    (given : ∀ earlier step later branch,
      steps (.empty pool) operations = earlier ++ step :: later →
        step.operation = .patch branch → ∃ jump ∈ earlier, jump.given? = some branch) :
    Holds (steps (.empty pool) operations) (final (.empty pool) operations).code := by
  induction operations using List.reverseRecOn with
  | nil => exact ⟨trivial, rfl, by simp [steps, fillings]⟩
  | append_singleton earlier operation inductionHypothesis =>
      rw [steps_append, steps, steps] at complete given ⊢
      rw [final_concat]
      let last : Step := ⟨operation, final (.empty pool) earlier⟩
      have holds : Holds (steps (.empty pool) earlier) last.before.code := by
        refine inductionHypothesis
          (fun step present => complete step (List.mem_append_left _ present)) ?_
        intro front step later branch split
        exact given front step (later ++ [last]) branch (by simp [split, last])
      rcases last.cases_of_complete (complete last (by simp [last])) with
        idle | ⟨opcode, operand, writes⟩ | ⟨branch, fills⟩
      · exact holds.idle idle
      · exact holds.writes writes
      · obtain ⟨jump, present, isGiven⟩ := given _ last [] branch rfl fills.operation
        obtain ⟨opcode, wrote⟩ :=
          Step.written_of_given (complete jump (List.mem_append_left _ present)) isGiven
        exact holds.fills fills (List.mem_filterMap.mpr ⟨jump, present, wrote⟩)

/-- A branch with an offset in reach leads where it was asked to. -/
theorem Written.target?_instruction
    {done : List Step}
    {entry : Written}
    {target : Nat}
    (isBranch : entry.opcode.isBranch)
    (goal : entry.goal? done = some target)
    (near : InReach ((target : Int) - entry.address)) :
    (entry.instruction done).target? = some target := by
  obtain ⟨test, opcode⟩ := Opcode.exists_test isBranch
  have instruction : entry.instruction done =
      (Order.branch test ((target : Int) - entry.address)).standing entry.address := by
    obtain ⟨address, _, operand⟩ := entry
    subst opcode
    cases operand with
    | bytes _ => cases goal
    | toward _ | ahead => simp [Written.instruction, operands, goal, Order.branch, Order.standing]
  rw [instruction]
  exact Order.target?_branch test near.1 near.2 (by omega)

/-- Code that is read back as what the steps were asked to write. -/
structure ReadBack (done : List Step) (code : Code) : Prop where
  /-- What is decoded are the instructions that were asked for, in order. -/
  decode_eq : decode code.bytes.toList = listing done
  /-- They stand one behind another. -/
  contiguous : Contiguous 0 (listing done)
  /-- They end where the code ends. -/
  bytes_eq : (listing done).flatMap Instruction.bytes = code.bytes.toList
  /-- A branch forward leads to where the code ended when it was filled in. -/
  forward : ∀ entry ∈ written done, entry.operand = .ahead →
    ∃ position, fillings done ⟨entry.address⟩ = [position] ∧
      (entry.instruction done).target? = some position
  /-- A branch backward leads to the address it was given. -/
  backward : ∀ entry ∈ written done, ∀ target, entry.operand = .toward target →
    (entry.instruction done).target? = some target

/-- Code that holds what the steps have written is read back as the listing of the steps. -/
theorem WellUsed.readBack
    {done : List Step}
    {code : Code}
    (wellUsed : WellUsed done)
    (holds : Holds done code) :
    ReadBack done code where
  decode_eq := by rw [holds.bytes_eq, holds.contiguous.decode_eq]
  contiguous := holds.contiguous
  bytes_eq := holds.bytes_eq.symm
  forward := by
    intro entry present ahead
    obtain ⟨step, inDone, wrote⟩ := List.mem_filterMap.mp present
    obtain ⟨address, writes⟩ := Step.writes_of_written (wellUsed.complete step inDone) wrote
    have given : step.given? = some ⟨entry.address⟩ := by
      rw [writes.given, ahead, address]
      rfl
    obtain ⟨position, filled⟩ := wellUsed.once step inDone _ given
    refine ⟨position, filled, ?_⟩
    obtain ⟨patch, patched, fills⟩ : ∃ patch ∈ done, patch.fills? ⟨entry.address⟩ = some position :=
      List.mem_filterMap.mp (by rw [← fillings, filled]; simp)
    exact Written.target?_instruction
      (writes.isBranch fun bytes => by simp [ahead])
      (by simp [Written.goal?, ahead, filled])
      (Step.near_of_fills (wellUsed.complete patch patched) fills)
  backward := by
    intro entry present target toward
    obtain ⟨step, inDone, wrote⟩ := List.mem_filterMap.mp present
    obtain ⟨address, writes⟩ := Step.writes_of_written (wellUsed.complete step inDone) wrote
    exact Written.target?_instruction
      (writes.isBranch fun bytes => by simp [toward])
      (by simp [Written.goal?, toward])
      (address ▸ writes.near target toward)

/-- However writing and filling in are interleaved, the code is read back as what was asked for.
Filling in a branch changes only its two operand bytes, and whatever is refused changes nothing:
an offset out of reach, or an integer for which the pool has no room. -/
theorem readBack_steps
    (pool : Pool)
    (operations : List Operation)
    (wellUsed : WellUsed (steps (.empty pool) operations)) :
    ReadBack (steps (.empty pool) operations) (final (.empty pool) operations).code ∧
    (∀ (body : Body) (branch : Jump),
      let offset : Int := body.code.position - branch.address
      (InReach offset ∧
        ∃ after, Emit.patch branch body = .ok () after ∧ body.SameBut branch after) ∨
      (¬InReach offset ∧ Emit.patch branch body = .error (.branchOutOfRange offset) body)) ∧
    (∀ (body : Body) (opcode : Opcode) (target : Nat),
      let offset : Int := target - body.code.position
      (InReach offset ∧ ∃ after, Emit.jumpBack opcode target body = .ok () after) ∨
      (¬InReach offset ∧
        Emit.jumpBack opcode target body = .error (.branchOutOfRange offset) body)) ∧
    (∀ (body : Body) (value : Int32),
      (∃ after, Emit.pushInt value body = .ok () after) ∨
      (¬InReach value.toInt ∧ Pool.integer value body.pool = .error .poolOverflow body.pool ∧
        Emit.pushInt value body = .error .poolOverflow body)) ∧
    ∀ operation : Operation, ¬operation.MayBeRefused →
      ∀ body, ∃ given after, operation.run body = .ok given after := by
  refine ⟨wellUsed.readBack (holds_final pool operations wellUsed.complete wellUsed.given),
    ?patch, ?jumpBack, ?pushInt, ?others⟩
  case patch =>
    intro body branch offset
    have asked := Emit.patch_eq branch body
    by_cases near : InReach offset
    · exact .inl ⟨near, _, asked.trans (if_pos near), body.sameBut_redirect branch _⟩
    · exact .inr ⟨near, asked.trans (if_neg near)⟩
  case jumpBack =>
    intro body opcode target offset
    have asked := Emit.jumpBack_eq opcode target body
    by_cases near : InReach offset
    · exact .inl ⟨near, _, asked.trans (if_pos near)⟩
    · exact .inr ⟨near, asked.trans (if_neg near)⟩
  case pushInt =>
    intro body value
    exact (Emit.pushInt_cases value body).imp_left fun ⟨after, done, _⟩ => ⟨after, done⟩
  case others =>
    intro operation certain body
    cases operation with
    | patch _ | jumpBack _ _ | pushInt _ _ => exact absurd trivial certain
    | _ => exact ⟨_, _, rfl⟩

/-- Two branches forward, the second of which starts before the first ends and ends behind it,
and a branch backward over both. -/
def crossing : List Operation :=
  [.jump .ifZero, .pushInt 1 .empty, .jump .goto, .patch ⟨0⟩, .pushInt 100 .empty, .patch ⟨4⟩,
    .jumpBack .goto 0]

/-- The operations with crossing branches use branches as they are meant to be used. -/
theorem wellUsed_crossing : WellUsed (steps (.empty .empty) crossing) where
  complete := by
    simp [steps, crossing, Operation.Complete, Opcode.isBranch]
  given := by
    intro earlier step later branch split patches
    -- Both branches are given among the first three steps, of which none is a patch.
    rcases earlier with _ | ⟨first, _ | ⟨second, _ | ⟨third, rest⟩⟩⟩ <;>
      simp only [steps, crossing, List.nil_append, List.cons_append, List.cons.injEq] at split
    · obtain ⟨rfl, -⟩ := split
      cases patches
    · obtain ⟨-, rfl, -⟩ := split
      cases patches
    · obtain ⟨-, -, rfl, -⟩ := split
      cases patches
    · obtain ⟨rfl, -, rfl, split⟩ := split
      have present : step ∈ rest ++ step :: later := by simp
      simp only [← split, List.mem_cons, List.not_mem_nil, or_false] at present
      rcases present with rfl | rfl | rfl | rfl
      · cases patches
        exact ⟨_, List.mem_cons_self, rfl⟩
      · cases patches
      · cases patches
        exact ⟨_, List.mem_cons_of_mem _ (List.mem_cons_of_mem _ List.mem_cons_self), rfl⟩
      · cases patches
  once := by
    intro step present branch given
    simp only [steps, crossing, List.mem_cons, List.not_mem_nil, or_false] at present
    rcases present with rfl | rfl | rfl | rfl | rfl | rfl | rfl
    · obtain rfl := Option.some.inj given
      exact ⟨7, rfl⟩
    · cases given
    · obtain rfl := Option.some.inj given
      exact ⟨9, rfl⟩
    · cases given
    · cases given
    · cases given
    · cases given

/-- The crossing branches are read back with the offsets that were filled in. -/
theorem readBack_steps_crossing :
    WellUsed (steps (.empty .empty) crossing) ∧
    decode (final (.empty .empty) crossing).code.bytes.toList =
      [⟨0, .ifZero, [0, 7]⟩, ⟨3, .iconst 2, []⟩, ⟨4, .goto, [0, 5]⟩, ⟨7, .bipush, [100]⟩,
        ⟨9, .goto, [0xFF, 0xF7]⟩] := by
  refine ⟨wellUsed_crossing, ?_⟩
  rw [(readBack_steps .empty crossing wellUsed_crossing).1.decode_eq]
  rfl

end Code
end Compile
end Pictogram
