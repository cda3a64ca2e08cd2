import Pictogram.Compile.Statement
import Pictogram.Proofs.Code.Expression

/-!
# The code of statements

`PartTree` says which code belongs to a statement or to several, and which names
are in scope after it.  A further clause of a conditional is the same as a
conditional in place of the alternate, and has the same code.
-/

namespace Pictogram
namespace Compile

open Pictogram.Class (Pool)
open Machine (Order Test Opcode)

/-- A statement, or several one after another. -/
inductive Part where
  | one (statement : Statement)
  | all (statements : List Statement)

/-- What is left to be done when the first test of a conditional fails. -/
def remaining : List Clause → List Statement → List Statement
  | [], alternate => alternate
  | .mk test body :: elseIfs, alternate => [.conditional test body elseIfs alternate]

/-- The code of a part of a program, with the scope before and after it. -/
inductive PartTree (pool : Pool) : Slots → Part → Slots → Tree → Prop
  | print {slots : Slots} {argument : Expression} {position : Position} {type : StaticType}
      {tree : Tree} {stream method : UInt16} :
      pool.field? stream = some Machine.standardOutput →
      ExpressionTree pool slots argument type tree →
      pool.method? method = some (Machine.printLine s!"({type.descriptor})V") →
      PartTree pool slots (.one (.print argument position)) slots
        (.seq (.plain (.field stream)) (.seq tree (.plain (.call method))))
  | declare {before after : Slots} {id : Identifier} {value : Expression} {type : StaticType}
      {tree : Tree} {slot : UInt8} :
      ExpressionTree pool before value type tree →
      Slots.declare id type before = .ok slot after →
      PartTree pool before (.one (.declare id (some value))) after
        (.seq tree (.plain (.store type.cell slot)))
  /-- A variable without a first value is zero. -/
  | declareZero {before after : Slots} {id : Identifier} {slot : UInt8} :
      Slots.declare id .int before = .ok slot after →
      PartTree pool before (.one (.declare id none)) after
        (.seq (.plain (.iconst 1)) (.plain (.store .int slot)))
  | onlyIf {before after : Slots} {test : Expression} {body : List Statement}
      {elseIfs : List Clause} {alternate : List Statement} {type : StaticType}
      {testTree bodyTree : Tree} :
      ExpressionTree pool before test type testTree →
      type ≠ .string →
      PartTree pool before (.all body) after bodyTree →
      remaining elseIfs alternate = [] →
      PartTree pool before (.one (.conditional test body elseIfs alternate)) after
        (.seq testTree (.skip .zero bodyTree))
  | ifElse {before between after : Slots} {test : Expression} {body : List Statement}
      {elseIfs : List Clause} {alternate : List Statement} {type : StaticType}
      {testTree bodyTree restTree : Tree} :
      ExpressionTree pool before test type testTree →
      type ≠ .string →
      PartTree pool before (.all body) between bodyTree →
      remaining elseIfs alternate ≠ [] →
      PartTree pool between (.all (remaining elseIfs alternate)) after restTree →
      PartTree pool before (.one (.conditional test body elseIfs alternate)) after
        (.seq testTree (.choose .zero bodyTree restTree))
  | count {before held inside after : Slots} {counter : Identifier} {start stop : Expression}
      {body : List Statement} {stopSlot slot : UInt8} {startTree stopTree bodyTree : Tree} :
      ExpressionTree pool before start .int startTree →
      ExpressionTree pool before stop .int stopTree →
      Slots.hidden before = .ok stopSlot held →
      Slots.declare counter .int held = .ok slot inside →
      PartTree pool inside (.all body) after bodyTree →
      PartTree pool before (.one (.count counter start stop body)) (after.remove counter.name)
        (.seq (.seq startTree (.seq stopTree (.seq (.plain (.store .int stopSlot))
            (.plain (.store .int slot)))))
          (.loop (.seq (.plain (.load .int slot)) (.plain (.load .int stopSlot)))
            (.compare .greaterOrEqual) (.seq bodyTree (.plain (.increment slot)))))
  | loop {before after : Slots} {test : Expression} {body : List Statement} {type : StaticType}
      {testTree bodyTree : Tree} :
      ExpressionTree pool before test type testTree →
      type ≠ .string →
      PartTree pool before (.all body) after bodyTree →
      PartTree pool before (.one (.loop test body)) after (.loop testTree .zero bodyTree)
  | assign {slots : Slots} {target : Identifier} {value : Expression} {found : Local}
      {tree : Tree} :
      slots.resolve? target.name = some found →
      ExpressionTree pool slots value found.type tree →
      PartTree pool slots (.one (.evaluate (.assign target value))) slots
        (.seq tree (.plain (.store found.type.cell found.slot)))
  | drop {slots : Slots} {e : Expression} {type : StaticType} {tree : Tree} :
      ExpressionTree pool slots e type tree →
      PartTree pool slots (.one (.evaluate e)) slots (.seq tree (.plain .pop))
  | nil {slots : Slots} : PartTree pool slots (.all []) slots .empty
  | cons {before between after : Slots} {first : Statement} {rest : List Statement}
      {firstTree restTree : Tree} :
      PartTree pool before (.one first) between firstTree →
      PartTree pool between (.all rest) after restTree →
      PartTree pool before (.all (first :: rest)) after (.seq firstTree restTree)

namespace PartTree

variable {pool : Pool} {before after : Slots} {part : Part} {tree : Tree}

/-- The code of statements leaves the stack as it was. -/
theorem effect (code : PartTree pool before part after tree) : tree.effect = 0 := by
  induction code with
  | print _ argument _ => simp [Tree.effect, argument.effect]
  | declare value _ => simp [Tree.effect, value.effect]
  | declareZero _ => simp [Tree.effect]
  | onlyIf test _ _ _ _ => simp [Tree.effect, test.effect, Test.change]
  | ifElse test _ _ _ _ _ restEffect => simp [Tree.effect, test.effect, Test.change, restEffect]
  | count start stop _ _ _ _ =>
      simp [Tree.effect, start.effect, stop.effect, Test.change]
  | loop test _ _ _ => simp [Tree.effect, test.effect, Test.change]
  | assign _ value => simp [Tree.effect, value.effect]
  | drop value => simp [Tree.effect, value.effect]
  | nil => rfl
  | cons _ _ firstEffect restEffect => simp [Tree.effect, firstEffect, restEffect]

/-- Names stay in scope, but for the counter of a loop that has ended. -/
theorem grows (code : PartTree pool before part after tree) : before.Grows after := by
  induction code with
  | print _ _ _ | assign _ _ | drop _ | nil => exact .refl _
  | declare _ declared => exact Slots.grows_declare declared
  | declareZero declared => exact Slots.grows_declare declared
  | onlyIf _ _ _ _ bodyGrows => exact bodyGrows
  | ifElse _ _ _ _ _ bodyGrows restGrows => exact bodyGrows.trans restGrows
  | count _ _ hidden declared _ bodyGrows =>
      have inside := (Slots.grows_hidden hidden).trans (Slots.grows_declare declared)
      obtain ⟨free, -⟩ := Slots.declare_ok declared
      obtain ⟨-, -, rfl⟩ := Slots.hidden_ok hidden
      exact (inside.trans bodyGrows).remove free
  | loop _ _ _ bodyGrows => exact bodyGrows
  | cons _ _ firstGrows restGrows => exact firstGrows.trans restGrows

end PartTree

/-! ## What the generator writes -/

/-- The first body becomes the second by the code of a part of a program. -/
def Body.Executes (before : Body) (part : Part) (after : Body) : Prop :=
  ∃ tree, before.Wrote tree after ∧
    ∀ pool, after.pool.Extends pool → PartTree pool before.slots part after.slots tree

variable {before after : Body}

/-- A condition is written as an expression that is not a text. -/
theorem condition_ok
    {test : Expression}
    (sound : before.Sound)
    (done : condition test before = .ok () after) :
    ∃ type, type ≠ .string ∧ before.Evaluates test type after := by
  obtain ⟨type, tested, testing, done⟩ := Stateful.bind_eq_ok.mp done
  split at done
  · exact absurd done Stateful.throw_ne_ok
  · rename_i notText
    obtain ⟨-, rfl⟩ := Stateful.pure_eq_ok.mp done
    exact ⟨type, notText, expression_ok sound testing⟩

/-- What is written for a print is its code. -/
theorem print_ok
    {argument : Expression}
    {position : Position}
    (sound : before.Sound)
    (done : print argument before = .ok () after) :
    before.Executes (.one (.print argument position)) after := by
  obtain ⟨stream, streamed, streaming, done⟩ := Stateful.bind_eq_ok.mp done
  obtain ⟨streamBuilt, streamElse⟩ := Emit.onPool_ok streaming
  obtain ⟨streamAdded, streamStands⟩ := Pool.fieldRef_ok sound.pool streamBuilt
  obtain ⟨_, pushed, pushing, done⟩ := Stateful.bind_eq_ok.mp done
  have streamedSound : streamed.Sound :=
    ⟨streamAdded.sound, by rw [streamElse]; exact sound.settled⟩
  have pushWrote : streamed.Wrote (.plain (.field stream)) pushed := by
    rw [Emit.write_ok pushing]
    exact .plain streamedSound (.field stream) rfl
  have pushSame : pushed.slots = before.slots := by
    rw [Emit.write_ok pushing, streamElse]
  obtain ⟨type, valued, valuing, done⟩ := Stateful.bind_eq_ok.mp done
  obtain ⟨tree, wrote, same, code⟩ := expression_ok pushWrote.sound valuing
  obtain ⟨method, called, calling, done⟩ := Stateful.bind_eq_ok.mp done
  obtain ⟨methodBuilt, methodElse⟩ := Emit.onPool_ok calling
  obtain ⟨methodAdded, methodStands⟩ := Pool.methodRef_ok wrote.sound.pool methodBuilt
  have calledSettled : called.code.Settled := by
    rw [methodElse]
    exact wrote.sound.settled
  have finished := Emit.write_ok done
  have samePool : after.pool = called.pool := by rw [finished]
  have throughout : Pool.Added before.pool after.pool := by
    rw [samePool]
    exact (streamAdded.trans pushWrote.pool).trans (wrote.pool.trans methodAdded)
  refine ⟨.seq (.plain (.field stream)) (.seq tree (.plain (.call method))),
    ⟨throughout, ?_, trivial, wrote.fits, trivial⟩, fun pool extended => ?_⟩
  · rw [finished]
    dsimp only
    rw [Code.invoke_eq_extend calledSettled, Code.extend_seq, Code.extend_seq, methodElse,
      wrote.code, pushWrote.code, streamElse]
    rfl
  · rw [samePool] at extended
    have afterValue := methodAdded.kept.trans extended
    have afterStream := pushWrote.pool.kept.trans (wrote.pool.kept.trans afterValue)
    have sameSlots : after.slots = before.slots := by
      rw [finished, methodElse, same, pushSame]
    rw [sameSlots]
    exact .print (afterStream.field? streamStands) (pushSame ▸ code pool afterValue)
      (extended.method? methodStands)

/-- A value is stored in a slot that has been given out for it. -/
theorem storeGiven_ok
    {middle : Body}
    {change : EStateM Error Slots UInt8}
    {type : StaticType}
    {slot : UInt8}
    (sound : before.Sound)
    (giving : Emit.onSlots change before = .ok slot middle)
    (storing : Emit.store type slot middle = .ok () after) :
    change before.slots = .ok slot after.slots ∧
      before.Wrote (.plain (.store type.cell slot)) after := by
  obtain ⟨given, sameElse⟩ := Emit.onSlots_ok giving
  have middleSound : middle.Sound := by
    rw [sameElse]
    exact ⟨sound.pool, sound.settled⟩
  obtain ⟨wrote, same⟩ := Emit.store_ok middleSound storing
  refine ⟨by rwa [same], ?_, ?_, trivial⟩
  · have added := wrote.pool
    rwa [sameElse] at added
  · rw [wrote.code, sameElse]

theorem declaration_ok
    {id : Identifier}
    {init : Option Expression}
    (sound : before.Sound)
    (done : declaration id init before = .ok () after) :
    before.Executes (.one (.declare id init)) after := by
  cases init with
  | some value =>
      obtain ⟨type, valued, valuing, done⟩ := Stateful.bind_eq_ok.mp done
      obtain ⟨tree, wrote, same, code⟩ := expression_ok sound valuing
      obtain ⟨slot, allotted, giving, done⟩ := Stateful.bind_eq_ok.mp done
      obtain ⟨declared, storeWrote⟩ := storeGiven_ok wrote.sound giving done
      rw [same] at declared
      refine ⟨_, wrote.seq storeWrote, fun pool extended => ?_⟩
      exact .declare (code pool (storeWrote.pool.kept.trans extended)) declared
  | none =>
      obtain ⟨_, pushed, pushing, done⟩ := Stateful.bind_eq_ok.mp done
      obtain ⟨type, valued, valuing, done⟩ := Stateful.bind_eq_ok.mp done
      obtain ⟨rfl, rfl⟩ := Stateful.pure_eq_ok.mp valuing
      rw [pushInt_zero] at pushing
      obtain ⟨wrote, same⟩ := Emit.instruction_ok sound rfl rfl pushing
      obtain ⟨slot, allotted, giving, done⟩ := Stateful.bind_eq_ok.mp done
      obtain ⟨declared, storeWrote⟩ := storeGiven_ok wrote.sound giving done
      rw [same] at declared
      exact ⟨_, wrote.seq storeWrote, fun pool _ => .declareZero declared⟩

theorem effect_ok
    {e : Expression}
    (sound : before.Sound)
    (done : effect e before = .ok () after) :
    before.Executes (.one (.evaluate e)) after := by
  -- Only the value of an assignment is not left on the stack.
  have dropped {other : Expression} (done : (do
      let _ ← expression other
      Emit.instruction .pop : Emit Unit) before = .ok () after) :
      before.Executes (.one (.evaluate other)) after := by
    obtain ⟨type, valued, valuing, done⟩ := Stateful.bind_eq_ok.mp done
    obtain ⟨tree, wrote, same, code⟩ := expression_ok sound valuing
    obtain ⟨popWrote, popSame⟩ := Emit.instruction_ok wrote.sound rfl rfl done
    refine ⟨_, wrote.seq popWrote, fun pool extended => ?_⟩
    rw [popSame, same]
    exact .drop (code pool (popWrote.pool.kept.trans extended))
  cases e with
  | assign target value =>
      obtain ⟨type, valued, valuing, done⟩ := Stateful.bind_eq_ok.mp done
      obtain ⟨-, rfl⟩ := Stateful.pure_eq_ok.mp done
      obtain ⟨found, tree, known, rfl, wrote, same, code⟩ :=
        assignment_ok (fun valued => expression_ok sound valued) valuing
      refine ⟨_, wrote, fun pool extended => ?_⟩
      rw [same]
      exact .assign known (code pool extended)
  | literal | name | negate | binary => exact dropped done

/-- The two branches at the end of a loop. -/
theorem closeLoop_ok
    {code : Code}
    {head body : Tree}
    {test : Test}
    (flat : body.effect = 0)
    (entered : before.code = code.enter head test body)
    (done : (do
      Emit.jumpBack .goto code.position
      Emit.patch ⟨code.position + head.size⟩ : Emit Unit) before = .ok () after) :
    after = { before with code := code.extend (.loop head test body) } ∧
      3 + body.size + 3 ≤ 32767 ∧ head.size + (3 + body.size) ≤ 32768 := by
  obtain ⟨_, returned, returning, done⟩ := Stateful.bind_eq_ok.mp done
  obtain ⟨least, -, rfl⟩ := Emit.jumpBack_ok .always returning
  obtain ⟨-, greatest, rfl⟩ := Emit.patch_ok done
  have place : before.code.position = code.position + (head.size + (3 + body.size)) := by
    rw [entered, Code.position_enter]
  have back : (code.position : Int) - before.code.position =
      -(head.size + (3 + body.size)) := by
    omega
  simp only [back] at least greatest ⊢
  simp only [Code.position_grow, Order.length_bytes_branch, place] at greatest
  refine ⟨?_, by omega, by omega⟩
  rw [← Code.enter_eq_extend_loop code head test flat, ← entered]
  rfl

variable {body : List Statement}

/-- The code of a loop with a test, given what is written for its body. -/
theorem loop_ok
    {test : Expression}
    (sound : before.Sound)
    (bodyExecutes : ∀ {first last : Body}, first.Sound →
      statements body first = .ok () last → first.Executes (.all body) last)
    (done : loop test (statements body) before = .ok () after) :
    before.Executes (.one (.loop test body)) after := by
  obtain ⟨head, placed, placing, done⟩ := Stateful.bind_eq_ok.mp done
  obtain ⟨rfl, rfl⟩ := Emit.position_ok placing
  obtain ⟨_, tested, testing, done⟩ := Stateful.bind_eq_ok.mp done
  obtain ⟨type, notText, testTree, testWrote, testSame, testCode⟩ := condition_ok sound testing
  obtain ⟨exit, branched, branching, done⟩ := Stateful.bind_eq_ok.mp done
  obtain ⟨rfl, branchedIs⟩ := Emit.jump_ok .zero branching
  have branchedSound : branched.Sound := by
    rw [branchedIs]
    exact ⟨testWrote.pool.sound, Code.settled_grow _ _ (le_refl _)⟩
  obtain ⟨_, bodied, bodying, done⟩ := Stateful.bind_eq_ok.mp done
  obtain ⟨bodyTree, bodyWrote, bodyCode⟩ := bodyExecutes branchedSound bodying
  have flat : bodyTree.effect = 0 := (bodyCode bodied.pool (.refl _)).effect
  have entered : bodied.code = before.code.enter testTree .zero bodyTree := by
    rw [bodyWrote.code, branchedIs, testWrote.code]
    rfl
  rw [testWrote.code, Code.position_extend] at done
  obtain ⟨rfl, exitFits, backFits⟩ := closeLoop_ok flat entered done
  have bodyAdded : Pool.Added tested.pool bodied.pool := by
    have := bodyWrote.pool
    rwa [branchedIs] at this
  refine ⟨_, ⟨testWrote.pool.trans bodyAdded, rfl, testWrote.fits, bodyWrote.fits, exitFits,
    backFits⟩, fun pool extended => ?_⟩
  have bodyStands := bodyCode pool extended
  rw [branchedIs] at bodyStands
  dsimp only at bodyStands
  rw [testSame] at bodyStands
  exact .loop (testCode pool (bodyAdded.kept.trans extended)) notText bodyStands

/-- The bounds of a counted loop are evaluated and stored. -/
theorem bounds_ok
    {counter : Identifier}
    {start stop : Expression}
    {next : UInt8 → UInt8 → Emit Unit}
    (sound : before.Sound)
    (done : (do
      require .int start.position (expression start)
      require .int stop.position (expression stop)
      let stopSlot ← Emit.onSlots Slots.hidden
      Emit.store .int stopSlot
      let slot ← Emit.onSlots (Slots.declare counter .int)
      Emit.store .int slot
      next stopSlot slot : Emit Unit) before = .ok () after) :
    ∃ startTree stopTree stopSlot slot held stored,
      before.Wrote (.seq startTree (.seq stopTree (.seq (.plain (.store .int stopSlot))
        (.plain (.store .int slot))))) stored ∧
      (∀ pool, stored.pool.Extends pool →
        ExpressionTree pool before.slots start .int startTree ∧
          ExpressionTree pool before.slots stop .int stopTree) ∧
      Slots.hidden before.slots = .ok stopSlot held ∧
      Slots.declare counter .int held = .ok slot stored.slots ∧
      next stopSlot slot stored = .ok () after := by
  obtain ⟨_, started, starting, done⟩ := Stateful.bind_eq_ok.mp done
  obtain ⟨startTree, startWrote, startSame, startCode⟩ :=
    expression_ok sound (require_ok starting)
  obtain ⟨_, stopped, stopping, done⟩ := Stateful.bind_eq_ok.mp done
  obtain ⟨stopTree, stopWrote, stopSame, stopCode⟩ :=
    expression_ok startWrote.sound (require_ok stopping)
  obtain ⟨stopSlot, hid, givingStop, done⟩ := Stateful.bind_eq_ok.mp done
  obtain ⟨_, held, holding, done⟩ := Stateful.bind_eq_ok.mp done
  obtain ⟨hidden, holdWrote⟩ := storeGiven_ok stopWrote.sound givingStop holding
  obtain ⟨slot, allotted, giving, done⟩ := Stateful.bind_eq_ok.mp done
  obtain ⟨_, stored, storing, done⟩ := Stateful.bind_eq_ok.mp done
  obtain ⟨declared, storeWrote⟩ := storeGiven_ok holdWrote.sound giving storing
  refine ⟨startTree, stopTree, stopSlot, slot, held.slots, stored,
    startWrote.seq (stopWrote.seq (holdWrote.seq storeWrote)), ?_, ?_, declared, done⟩
  · intro pool extended
    have afterStop := holdWrote.pool.kept.trans (storeWrote.pool.kept.trans extended)
    exact ⟨startCode pool (stopWrote.pool.kept.trans afterStop),
      startSame ▸ stopCode pool afterStop⟩
  · rwa [stopSame, startSame] at hidden

/-- The code of a counted loop, given what is written for its body. -/
theorem count_ok
    {counter : Identifier}
    {start stop : Expression}
    (sound : before.Sound)
    (bodyExecutes : ∀ {first last : Body}, first.Sound →
      statements body first = .ok () last → first.Executes (.all body) last)
    (done : count counter start stop (statements body) before = .ok () after) :
    before.Executes (.one (.count counter start stop body)) after := by
  obtain ⟨startTree, stopTree, stopSlot, slot, held, stored, boundsWrote, boundsCode, hidden,
    declared, done⟩ := bounds_ok sound done
  obtain ⟨head, placed, placing, done⟩ := Stateful.bind_eq_ok.mp done
  obtain ⟨rfl, rfl⟩ := Emit.position_ok placing
  obtain ⟨_, loaded, loading, done⟩ := Stateful.bind_eq_ok.mp done
  obtain ⟨loadWrote, loadSame⟩ := Emit.load_ok boundsWrote.sound loading
  obtain ⟨_, both, loadingStop, done⟩ := Stateful.bind_eq_ok.mp done
  obtain ⟨stopWrote, stopSame⟩ := Emit.load_ok loadWrote.sound loadingStop
  obtain ⟨exit, branched, branching, done⟩ := Stateful.bind_eq_ok.mp done
  obtain ⟨rfl, branchedIs⟩ := Emit.jump_ok (.compare .greaterOrEqual) branching
  have headWrote := loadWrote.seq stopWrote
  have branchedSound : branched.Sound := by
    rw [branchedIs]
    exact ⟨headWrote.pool.sound, Code.settled_grow _ _ (le_refl _)⟩
  obtain ⟨_, bodied, bodying, done⟩ := Stateful.bind_eq_ok.mp done
  obtain ⟨bodyTree, bodyWrote, bodyCode⟩ := bodyExecutes branchedSound bodying
  obtain ⟨_, stepped, stepping, done⟩ := Stateful.bind_eq_ok.mp done
  have stepIs := Emit.write_ok stepping
  have stepWrote : bodied.Wrote (.plain (.increment slot)) stepped := by
    rw [stepIs]
    exact .plain bodyWrote.sound (.increment slot) rfl
  have roundWrote := bodyWrote.seq stepWrote
  have flat : (Tree.seq bodyTree (.plain (.increment slot))).effect = 0 := by
    simp [Tree.effect, (bodyCode bodied.pool (.refl _)).effect]
  have entered := roundWrote.code
  rw [branchedIs, headWrote.code] at entered
  rw [headWrote.code, Code.position_extend] at done
  obtain ⟨_, returned, returning, done⟩ := Stateful.bind_eq_ok.mp done
  obtain ⟨_, closed, closing, done⟩ := Stateful.bind_eq_ok.mp done
  obtain ⟨closedIs, exitFits, backFits⟩ :=
    closeLoop_ok flat entered (Stateful.bind_eq_ok.mpr ⟨_, returned, returning, closing⟩)
  obtain ⟨-, rfl⟩ := EStateM.Result.ok.inj done
  subst closedIs
  have bodyAdded : Pool.Added both.pool stepped.pool := by
    have := roundWrote.pool
    rwa [branchedIs] at this
  have loopWrote : stored.Wrote
      (.loop (.seq (.plain (.load .int slot)) (.plain (.load .int stopSlot)))
        (.compare .greaterOrEqual) (.seq bodyTree (.plain (.increment slot))))
      { stepped with
        code := stored.code.extend
          (.loop (.seq (.plain (.load .int slot)) (.plain (.load .int stopSlot)))
            (.compare .greaterOrEqual) (.seq bodyTree (.plain (.increment slot)))) } :=
    ⟨headWrote.pool.trans bodyAdded, rfl, headWrote.fits, roundWrote.fits, exitFits, backFits⟩
  refine ⟨_, (boundsWrote.seq loopWrote).slots _, fun pool extended => ?_⟩
  have bodyStands := bodyCode pool (stepWrote.pool.kept.trans extended)
  rw [branchedIs] at bodyStands
  dsimp only at bodyStands
  rw [stopSame, loadSame] at bodyStands
  obtain ⟨startStands, stopStands⟩ := boundsCode pool (loopWrote.pool.kept.trans extended)
  have sameSlots : stepped.slots = bodied.slots := by rw [stepIs]
  dsimp only
  rw [sameSlots]
  exact .count startStands stopStands hidden declared bodyStands

end Compile
end Pictogram
