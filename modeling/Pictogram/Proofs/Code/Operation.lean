import Pictogram.Proofs.Class.Indexing
import Pictogram.Proofs.Code.Ways

/-!
# Operations on code

Code is put together by operations.  Most of them write an instruction behind the code, a patch
fills in the offset of a branch that was written earlier, and some are refused, which changes
nothing.  A step is an operation on a method, and all it can do is one of these three.
-/

namespace Pictogram

namespace Machine
namespace Order

/-- An instruction that adds a signed byte to a local. -/
def addTo (slot : UInt8) (change : Int8) : Order := ⟨.increment, [slot, change.toUInt8], rfl⟩

end Order

/-- Every opcode of a branch is that of a test. -/
theorem Opcode.exists_test
    {opcode : Opcode}
    (isBranch : opcode.isBranch = true) :
    ∃ test : Test, opcode = test.opcode := by
  cases opcode with
  | goto => exact ⟨.always, rfl⟩
  | ifZero => exact ⟨.zero, rfl⟩
  | ifNonzero => exact ⟨.nonzero, rfl⟩
  | ifCompare relation => exact ⟨.compare relation, rfl⟩
  | _ => cases isBranch

end Machine

namespace Compile

open Pictogram.Class (Pool)
open Machine (Opcode Order Test)

/-! ## What is refused, and what a patch leaves alone -/

/-- The second method differs from the first at most in the two operand bytes of a branch. -/
structure Body.SameBut (branch : Jump) (before after : Body) : Prop where
  /-- Only bytes of the code can differ. -/
  body_eq : after = { before with code.bytes := after.code.bytes }
  /-- There are as many bytes as before. -/
  size_eq : after.code.bytes.size = before.code.bytes.size
  /-- No byte differs but the two behind the opcode of the branch. -/
  getElem?_eq : ∀ place, place ≠ branch.address + 1 → place ≠ branch.address + 2 →
    after.code.bytes[place]? = before.code.bytes[place]?

/-- A branch that is made to lead elsewhere is all that changes. -/
theorem Body.sameBut_redirect (body : Body) (branch : Jump) (target : Nat) :
    body.SameBut branch
      { body with code.bytes := Code.redirect body.code.bytes branch target } where
  body_eq := rfl
  size_eq := Code.size_redirect _ _ _
  getElem?_eq := by
    intro place notFirst notSecond
    obtain ⟨first, second, -, redirected⟩ :=
      Code.redirect_eq_set body.code.bytes branch target
    simp only [redirected]
    rw [Array.getElem?_setIfInBounds_ne notSecond.symm,
      Array.getElem?_setIfInBounds_ne notFirst.symm]

namespace Emit

/-- An offset is written if it is in reach, and is refused otherwise. -/
theorem offset_eq (source target : Nat) (body : Body) :
    offset source target body =
      if InReach ((target : Int) - source) then
        .ok (Bytes.signed 2 ((target : Int) - source)) body
      else .error (.branchOutOfRange ((target : Int) - source)) body := by
  by_cases near : InReach ((target : Int) - source)
  · have bytes : Code.offsetBytes source target =
        .ok (Bytes.signed 2 ((target : Int) - source)) := if_pos near
    rw [if_pos near, offset, bytes]
    rfl
  · have refused : Code.offsetBytes source target =
        .error (.branchOutOfRange ((target : Int) - source)) := if_neg near
    rw [if_neg near, offset, refused]
    rfl

/-- An open branch is made to lead to the end of the code, if that is in reach. -/
theorem patch_eq (branch : Jump) (body : Body) :
    patch branch body =
      if InReach ((body.code.position : Int) - branch.address) then
        .ok () { body with
          code.bytes := Code.redirect body.code.bytes branch body.code.position }
      else .error (.branchOutOfRange ((body.code.position : Int) - branch.address)) body := by
  have asked : patch branch body =
      EStateM.bind (offset branch.address body.code.position)
        (fun bytes => write (·.fill branch bytes)) body := rfl
  rw [asked, EStateM.bind, offset_eq]
  by_cases near : InReach ((body.code.position : Int) - branch.address)
  · rw [if_pos near, if_pos near]
    rfl
  · rw [if_neg near, if_neg near]

/-- A branch back is appended, if its target is in reach. -/
theorem jumpBack_eq (opcode : Opcode) (target : Nat) (body : Body) :
    jumpBack opcode target body =
      if InReach ((target : Int) - body.code.position) then
        .ok () { body with
          code := body.code.append opcode
            (Bytes.signed 2 ((target : Int) - body.code.position)) }
      else .error (.branchOutOfRange ((target : Int) - body.code.position)) body := by
  have asked : jumpBack opcode target body =
      EStateM.bind (offset body.code.position target)
        (fun bytes => write (·.append opcode bytes)) body := rfl
  rw [asked, EStateM.bind, offset_eq]
  by_cases near : InReach ((target : Int) - body.code.position)
  · rw [if_pos near, if_pos near]
    rfl
  · rw [if_neg near, if_neg near]

end Emit

/-- The index at which a pool gives an integer. -/
def integerIndex (value : Int32) (pool : Pool) : UInt16 :=
  match Pool.integer value pool with
  | .ok index _ => index
  | .error _ _ => 0

/-- An integer is pushed by one instruction, unless no operand can hold it and the pool has no
room for it: then nothing changes. -/
theorem Emit.pushInt_cases (value : Int32) (body : Body) :
    (∃ after, pushInt value body = .ok () after ∧
      after.code = body.code.append (Order.int value (integerIndex value body.pool)).opcode
        (Order.int value (integerIndex value body.pool)).operands) ∨
    ¬InReach value.toInt ∧ Pool.integer value body.pool = .error .poolOverflow body.pool ∧
      pushInt value body = .error .poolOverflow body := by
  by_cases near : InReach value.toInt
  · exact .inl ⟨_, pushInt_near near body _, rfl⟩
  · unfold integerIndex
    rw [pushInt_far near, Order.int_far near]
    cases built : Pool.integer value body.pool with
    | ok index pool => exact .inl ⟨_, rfl, rfl⟩
    | error error pool =>
        obtain ⟨rfl, rfl⟩ := Pool.eq_of_add_refused built
        exact .inr ⟨near, rfl, rfl⟩

namespace Code

/-! ## Operations -/

/-- An operation on the code of a method.  To push an integer, some pool is at hand. -/
inductive Operation where
  | instruction (opcode : Opcode)
  | byte (opcode : Opcode) (operand : UInt8)
  | word (opcode : Opcode) (operand : UInt16)
  | invoke (opcode : Opcode) (method : UInt16) (change : Int)
  | adjust (change : Int)
  | jump (opcode : Opcode)
  | patch (branch : Jump)
  | jumpBack (opcode : Opcode) (target : Nat)
  | pushInt (value : Int32) (pool : Pool)
  | loadConstant (index : UInt16)
  | load (type : StaticType) (slot : UInt8)
  | store (type : StaticType) (slot : UInt8)
  | increment (slot : UInt8) (change : Int8)

/-- A part of the construction that leaves no branch to be filled in. -/
def closed (emit : Emit Unit) : Emit (Option Jump) := do
  emit
  return none

/-- What the operand of an instruction has been asked to be. -/
inductive Operand where
  /-- These bytes. -/
  | bytes (given : List UInt8)
  /-- The offset of an address that is known. -/
  | toward (target : Nat)
  /-- The offset of an address that a patch will tell. -/
  | ahead

namespace Operation

/-- What an operation does.  A jump gives the branch that is to be filled in. -/
def run : Operation → Emit (Option Jump)
  | .instruction opcode => closed (Emit.instruction opcode)
  | .byte opcode operand => closed (Emit.write (·.emitByte opcode operand))
  | .word opcode operand => closed (Emit.write (·.emitWord opcode operand))
  | .invoke opcode method change => closed (Emit.write (·.invoke opcode method change))
  | .adjust change => closed (Emit.write (·.adjust change))
  | .jump opcode => some <$> Emit.jump opcode
  | .patch branch => closed (Emit.patch branch)
  | .jumpBack opcode target => closed (Emit.jumpBack opcode target)
  | .pushInt value pool => fun body => closed (Emit.pushInt value) { body with pool }
  | .loadConstant index => closed (Emit.loadConstant index)
  | .load type slot => closed (Emit.load type slot)
  | .store type slot => closed (Emit.store type slot)
  | .increment slot change => closed (Emit.write (·.increment slot change))

/-- Each opcode has as many operand bytes as it takes, and only branches jump. -/
def Complete : Operation → Prop
  | .instruction opcode => opcode.operandSize = 0
  | .byte opcode _ => opcode.operandSize = 1
  | .word opcode _ | .invoke opcode _ _ => opcode.operandSize = 2
  | .jump opcode | .jumpBack opcode _ => opcode.isBranch
  | _ => True

/-- Whether an operation can be refused. -/
def MayBeRefused : Operation → Prop
  | .patch _ | .jumpBack _ _ | .pushInt _ _ => True
  | _ => False

/-- An instruction that is asked for by its bytes. -/
def ofOrder (order : Order) : Option (Opcode × Operand) :=
  some (order.opcode, .bytes order.operands)

/-- The instruction that an operation is asked to write. -/
def asked : Operation → Option (Opcode × Operand)
  | .instruction opcode => some (opcode, .bytes [])
  | .byte opcode operand => some (opcode, .bytes [operand])
  | .word opcode operand => some (opcode, .bytes (Bytes.word operand))
  | .invoke opcode method _ => some (opcode, .bytes (Bytes.word method))
  | .jump opcode => some (opcode, .ahead)
  | .jumpBack opcode target => some (opcode, .toward target)
  | .pushInt value pool => ofOrder (.int value (integerIndex value pool))
  | .loadConstant index => ofOrder (.constant index)
  | .load type slot => ofOrder (.load type.cell slot)
  | .store type slot => ofOrder (.store type.cell slot)
  | .increment slot change => ofOrder (.addTo slot change)
  | .patch _ | .adjust _ => none

end Operation

/-! ## Steps -/

/-- An instruction as it was asked for, at the address where it was written. -/
structure Written where
  /-- The address of the opcode. -/
  address : Nat
  /-- The opcode. -/
  opcode : Opcode
  /-- What the operand is to be. -/
  operand : Operand

/-- An operation and the method that it starts from. -/
structure Step where
  /-- The operation. -/
  operation : Operation
  /-- The method before it. -/
  before : Body

namespace Step

/-- What comes of the operation. -/
def result (step : Step) : EStateM.Result Error Body (Option Jump) :=
  step.operation.run step.before

/-- The method that is left, whether the operation was refused or not. -/
def after (step : Step) : Body :=
  match step.result with
  | .ok _ body | .error _ body => body

/-- The branch that the operation gives to be filled in. -/
def given? (step : Step) : Option Jump :=
  match step.result with
  | .ok given _ => given
  | .error _ _ => none

/-- The instruction that the operation has written, unless it was refused. -/
def written? (step : Step) : Option Written :=
  match step.result with
  | .ok _ _ => step.operation.asked.map fun (opcode, operand) =>
      ⟨step.before.code.position, opcode, operand⟩
  | .error _ _ => none

/-- The end of the code when the operation fills in a branch, unless it was refused. -/
def fills? (branch : Jump) (step : Step) : Option Nat :=
  match step.operation, step.result with
  | .patch other, .ok _ _ => if other = branch then some step.before.code.position else none
  | _, _ => none

end Step

/-! ## What a step can do -/

namespace Operand

/-- The operand bytes as they are written first. -/
def first (address : Nat) : Operand → List UInt8
  | .bytes given => given
  | .toward target => Bytes.signed 2 ((target : Int) - address)
  | .ahead => [0xFF, 0xFF]

/-- The branch that is given to be filled in. -/
def given? (address : Nat) : Operand → Option Jump
  | .ahead => some ⟨address⟩
  | _ => none

end Operand

namespace Step

/-- A step that leaves the code as it is. -/
structure Idle (step : Step) : Prop where
  written : step.written? = none
  fills : ∀ branch, step.fills? branch = none
  given : step.given? = none
  bytes : step.after.code.bytes = step.before.code.bytes

/-- A step that writes an instruction behind the code. -/
structure Writes (step : Step) (opcode : Opcode) (operand : Operand) : Prop where
  written : step.written? = some ⟨step.before.code.position, opcode, operand⟩
  fills : ∀ branch, step.fills? branch = none
  given : step.given? = operand.given? step.before.code.position
  bytes : step.after.code.bytes = step.before.code.bytes ++
    (opcode.byte :: operand.first step.before.code.position).toArray
  complete : (operand.first step.before.code.position).length = opcode.operandSize
  isBranch : (∀ given, operand ≠ .bytes given) → opcode.isBranch
  near : ∀ target, operand = .toward target →
    InReach ((target : Int) - step.before.code.position)

/-- A step that fills in a branch. -/
structure Fills (step : Step) (branch : Jump) : Prop where
  operation : step.operation = .patch branch
  written : step.written? = none
  fills : ∀ other, step.fills? other =
    if branch = other then some step.before.code.position else none
  given : step.given? = none
  bytes : step.after.code.bytes =
    redirect step.before.code.bytes branch step.before.code.position
  near : InReach ((step.before.code.position : Int) - branch.address)

end Step

theorem bytes_append (code : Code) (opcode : Opcode) (operands : List UInt8) :
    (code.append opcode operands).bytes =
      code.bytes ++ (opcode.byte :: operands).toArray := by
  unfold append
  cases opcode.stackEffect? <;> simp [adjust]

/-- A load is appended in its shorter form. -/
theorem load_eq (code : Code) (cell : Machine.Cell) (slot : UInt8) :
    code.load cell slot =
      code.append (Order.load cell slot).opcode (Order.load cell slot).operands := by
  unfold load Order.load
  split <;> rfl

/-- A store is appended in its shorter form. -/
theorem store_eq (code : Code) (cell : Machine.Cell) (slot : UInt8) :
    code.store cell slot =
      code.append (Order.store cell slot).opcode (Order.store cell slot).operands := by
  unfold store Order.store
  split <;> rfl

theorem closed_of_ok
    {emit : Emit Unit}
    {before after : Body}
    (done : emit before = .ok () after) :
    closed emit before = .ok none after := by
  show EStateM.bind emit _ before = _
  rw [EStateM.bind, done]
  rfl

theorem closed_of_error
    {emit : Emit Unit}
    {before after : Body}
    {error : Error}
    (refused : emit before = .error error after) :
    closed emit before = .error error after := by
  show EStateM.bind emit _ before = _
  rw [EStateM.bind, refused]

namespace Step

/-- An operation that writes the bytes it was asked for. -/
theorem writes_bytes
    {operation : Operation}
    {before after : Body}
    {opcode : Opcode}
    {operands : List UInt8}
    (done : operation.run before = .ok none after)
    (asked : operation.asked = some (opcode, .bytes operands))
    (code : after.code.bytes = (before.code.append opcode operands).bytes)
    (complete : operands.length = opcode.operandSize) :
    Writes ⟨operation, before⟩ opcode (.bytes operands) where
  written := by simp [written?, result, done, asked]
  fills := by
    intro branch
    cases operation <;> first | rfl | cases asked
  given := by simp [given?, result, done, Operand.given?]
  bytes := by simp [Step.after, result, done, code, bytes_append, Operand.first]
  complete := complete
  isBranch := fun notBytes => absurd rfl (notBytes operands)
  near := by nofun

/-- A refused operation that changes no code is idle. -/
theorem idle_of_error
    {operation : Operation}
    {before after : Body}
    {error : Error}
    (refused : operation.run before = .error error after)
    (code : after.code = before.code) :
    Idle ⟨operation, before⟩ where
  written := by simp [written?, result, refused]
  fills := by
    intro branch
    simp only [fills?, result, refused]
  given := by simp [given?, result, refused]
  bytes := by simp [Step.after, result, refused, code]

/-- A branch is written with a hole where its offset will be. -/
theorem writes_jump
    {opcode : Opcode}
    (isBranch : opcode.isBranch)
    (before : Body) :
    Writes ⟨.jump opcode, before⟩ opcode .ahead where
  written := rfl
  fills := fun _ => rfl
  given := rfl
  bytes := bytes_append _ _ _
  complete := (Opcode.operandSize_of_isBranch isBranch).symm
  isBranch := fun _ => isBranch
  near := by nofun

/-- A branch backward is written if its target is in reach, and else nothing is done. -/
theorem jumpBack_cases
    {opcode : Opcode}
    (isBranch : opcode.isBranch)
    (target : Nat)
    (before : Body) :
    Idle ⟨.jumpBack opcode target, before⟩ ∨
      Writes ⟨.jumpBack opcode target, before⟩ opcode (.toward target) := by
  have asked := Emit.jumpBack_eq opcode target before
  by_cases near : InReach ((target : Int) - before.code.position)
  · rw [if_pos near] at asked
    have done : Operation.run (.jumpBack opcode target) before = _ := closed_of_ok asked
    exact .inr
      { written := by simp [written?, result, done, Operation.asked]
        fills := fun _ => rfl
        given := by simp [given?, result, done, Operand.given?]
        bytes := by simp [Step.after, result, done, bytes_append, Operand.first]
        complete := (Bytes.length_signed 2 _).trans (Opcode.operandSize_of_isBranch isBranch).symm
        isBranch := fun _ => isBranch
        near := by rintro _ ⟨⟩; exact near }
  · rw [if_neg near] at asked
    exact .inl (idle_of_error (closed_of_error asked) rfl)

/-- A branch is filled in if the end of the code is in reach of it, and else nothing is done. -/
theorem patch_cases (branch : Jump) (before : Body) :
    Idle ⟨.patch branch, before⟩ ∨ Fills ⟨.patch branch, before⟩ branch := by
  have asked := Emit.patch_eq branch before
  by_cases near : InReach ((before.code.position : Int) - branch.address)
  · rw [if_pos near] at asked
    have done : Operation.run (.patch branch) before = _ := closed_of_ok asked
    exact .inr
      { operation := rfl
        written := by simp [written?, result, done, Operation.asked]
        fills := by simp [fills?, result, done]
        given := by simp [given?, result, done]
        bytes := by simp [Step.after, result, done]
        near := near }
  · rw [if_neg near] at asked
    exact .inl (idle_of_error (closed_of_error asked) rfl)

/-- A step does nothing, writes an instruction, or fills in a branch. -/
theorem cases_of_complete
    (step : Step)
    (complete : step.operation.Complete) :
    step.Idle ∨ (∃ opcode operand, step.Writes opcode operand) ∨ ∃ branch, step.Fills branch := by
  obtain ⟨operation, before⟩ := step
  cases operation with
  | instruction opcode =>
      exact .inr (.inl ⟨_, _, writes_bytes rfl rfl rfl complete.symm⟩)
  | byte opcode operand =>
      exact .inr (.inl ⟨_, _, writes_bytes rfl rfl rfl complete.symm⟩)
  | word opcode operand =>
      refine .inr (.inl ⟨_, _, writes_bytes rfl rfl rfl ?_⟩)
      exact (Bytes.length_unsigned 2 _).trans complete.symm
  | invoke opcode method change =>
      refine .inr (.inl ⟨_, _, writes_bytes rfl rfl rfl ?_⟩)
      exact (Bytes.length_unsigned 2 _).trans complete.symm
  | loadConstant index =>
      refine .inr (.inl ⟨_, _, writes_bytes rfl rfl ?_ (Order.constant index).complete⟩)
      exact congrArg Code.bytes (loadConstant_eq before.code index)
  | load type slot =>
      refine .inr (.inl ⟨_, _, writes_bytes rfl rfl ?_ (Order.load type.cell slot).complete⟩)
      exact congrArg Code.bytes (load_eq before.code type.cell slot)
  | store type slot =>
      refine .inr (.inl ⟨_, _, writes_bytes rfl rfl ?_ (Order.store type.cell slot).complete⟩)
      exact congrArg Code.bytes (store_eq before.code type.cell slot)
  | increment slot change =>
      exact .inr (.inl ⟨_, _, writes_bytes rfl rfl rfl (Order.addTo slot change).complete⟩)
  | adjust change =>
      exact .inl ⟨rfl, fun _ => rfl, rfl, rfl⟩
  | pushInt value pool =>
      rcases Emit.pushInt_cases value { before with pool } with
        ⟨after, done, code⟩ | ⟨-, -, refused⟩
      · exact .inr (.inl ⟨_, _, writes_bytes (closed_of_ok done) rfl (congrArg Code.bytes code)
          (Order.int value _).complete⟩)
      · exact .inl (idle_of_error (closed_of_error refused) rfl)
  | jump opcode => exact .inr (.inl ⟨opcode, .ahead, writes_jump complete before⟩)
  | jumpBack opcode target =>
      exact (jumpBack_cases complete target before).imp_right fun writes => .inl ⟨_, _, writes⟩
  | patch branch =>
      exact (patch_cases branch before).imp_right fun fills => .inr ⟨branch, fills⟩

/-- A step that gives a branch has written it. -/
theorem written_of_given
    {step : Step}
    {branch : Jump}
    (complete : step.operation.Complete)
    (given : step.given? = some branch) :
    ∃ opcode, step.written? = some ⟨branch.address, opcode, .ahead⟩ := by
  rcases step.cases_of_complete complete with idle | ⟨opcode, operand, writes⟩ | ⟨_, fills⟩
  · rw [idle.given] at given
    cases given
  · rw [writes.given] at given
    cases operand with
    | ahead =>
        obtain rfl := Option.some.inj given
        exact ⟨opcode, writes.written⟩
    | _ => cases given
  · rw [fills.given] at given
    cases given

/-- An instruction that a step has written. -/
theorem writes_of_written
    {step : Step}
    {written : Written}
    (complete : step.operation.Complete)
    (wrote : step.written? = some written) :
    written.address = step.before.code.position ∧ step.Writes written.opcode written.operand := by
  rcases step.cases_of_complete complete with idle | ⟨opcode, operand, writes⟩ | ⟨_, fills⟩
  · rw [idle.written] at wrote
    cases wrote
  · obtain rfl := Option.some.inj (writes.written.symm.trans wrote)
    exact ⟨rfl, writes⟩
  · rw [fills.written] at wrote
    cases wrote

/-- Where the code ended when a branch was filled in, it was in reach. -/
theorem near_of_fills
    {step : Step}
    {branch : Jump}
    {position : Nat}
    (complete : step.operation.Complete)
    (filled : step.fills? branch = some position) :
    InReach ((position : Int) - branch.address) := by
  rcases step.cases_of_complete complete with idle | ⟨_, _, writes⟩ | ⟨other, fills⟩
  · rw [idle.fills] at filled
    cases filled
  · rw [writes.fills] at filled
    cases filled
  · rw [fills.fills] at filled
    split at filled
    · rename_i same
      obtain rfl := Option.some.inj filled
      rw [← same]
      exact fills.near
    · cases filled

end Step

end Code
end Compile
end Pictogram
