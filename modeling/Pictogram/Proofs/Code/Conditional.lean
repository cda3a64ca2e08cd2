import Pictogram.Proofs.Code.Statement

/-!
# The code of conditionals

A conditional is written clause by clause, while the branch of the last test and
the branches of all bodies to the end are still open.  `Body.Closes` says what
becomes of code with such branches once the rest of the conditional has been
written, whatever the code is.
-/

namespace Pictogram
namespace Compile

open Pictogram.Class (Pool)
open Machine (Order Test Opcode)

variable {before after : Body} {body : List Statement}

/-- A test and a body, and what is to be done if the test fails. -/
def Tree.clause (test body : Tree) : Option Tree → Tree
  | none => .seq test (.skip .zero body)
  | some rest => .seq test (.choose .zero body rest)

/-- The bytes behind the body of a clause: a branch over the rest, and the rest. -/
def restBytes : Option Tree → List UInt8
  | none => []
  | some rest => (Order.branch .always (3 + rest.size)).bytes ++ rest.bytes

/-- How far behind the body of a clause the rest begins. -/
def restEntry : Option Tree → Nat
  | none => 0
  | some _ => 3

/-- How high the stack gets in the rest. -/
def restPeak : Option Tree → Int
  | none => 0
  | some rest => rest.peak

/-- Whether the branches of the rest, and the one over it, can be written. -/
def RestFits : Option Tree → Prop
  | none => True
  | some rest => rest.Fits ∧ 3 + rest.size ≤ 32767

/-- The code of what is left to be done when a test fails. -/
def RestTree (pool : Pool) (before : Slots) (source : List Statement) (after : Slots) :
    Option Tree → Prop
  | none => source = [] ∧ before = after
  | some rest => source ≠ [] ∧ PartTree pool before (.all source) after rest

/-- The code of a conditional is a clause, with the code of the rest behind it. -/
theorem PartTree.conditional
    {pool : Pool}
    {before between after : Slots}
    {test : Expression}
    {body : List Statement}
    {elseIfs : List Clause}
    {alternate : List Statement}
    {type : StaticType}
    {testTree bodyTree : Tree}
    {rest : Option Tree}
    (testCode : ExpressionTree pool before test type testTree)
    (notText : type ≠ .string)
    (bodyCode : PartTree pool before (.all body) between bodyTree)
    (restCode : RestTree pool between (remaining elseIfs alternate) after rest) :
    PartTree pool before (.one (.conditional test body elseIfs alternate)) after
      (.clause testTree bodyTree rest) := by
  cases rest with
  | none =>
      obtain ⟨nothing, rfl⟩ := restCode
      exact .onlyIf testCode notText bodyCode nothing
  | some rest => exact .ifElse testCode notText bodyCode restCode.1 restCode.2

/-- A clause fits if its parts do and its branch reaches over the body. -/
theorem clause_fits
    {test body : Tree}
    {rest : Option Tree}
    (testFits : test.Fits)
    (bodyFits : body.Fits)
    (restFits : RestFits rest)
    (near : 3 + body.size + restEntry rest ≤ 32767) :
    (Tree.clause test body rest).Fits := by
  cases rest with
  | none => exact ⟨testFits, bodyFits, near⟩
  | some rest => exact ⟨testFits, bodyFits, restFits.1, near, restFits.2⟩

/-- The size of a clause is that of its test, its body with a branch, and the bytes of the rest. -/
theorem size_clause (test body : Tree) (rest : Option Tree) :
    (Tree.clause test body rest).size =
      test.size + (3 + body.size) + (restBytes rest).length := by
  cases rest with
  | none =>
      simp only [Tree.clause, Tree.size, restBytes, List.length_nil]
      omega
  | some rest =>
      simp only [Tree.clause, Tree.size, restBytes, List.length_append,
        Order.length_bytes_branch, Tree.length_bytes]
      omega

/-- The open branch of a clause made to lead to the rest. -/
theorem redirect_clause
    (code : Code)
    (test body : Tree)
    (rest : Option Tree) :
    Code.redirect (code.enter test .zero body).bytes ⟨code.position + test.size⟩
        ((code.enter test .zero body).position + restEntry rest) ++ (restBytes rest).toArray =
      code.bytes ++ (Tree.clause test body rest).bytes.toArray := by
  have place : (code.bytes ++ test.bytes.toArray).size = code.position + test.size := by
    simp [Code.position]
  have filled := Code.redirect_hole (code.bytes ++ test.bytes.toArray) .zero body.bytes
    ((code.enter test .zero body).position + restEntry rest)
  have reach : (((code.enter test .zero body).position + restEntry rest : Nat) : Int) -
      ((code.position + test.size : Nat) : Int) = 3 + body.size + restEntry rest := by
    rw [Code.position_enter]
    omega
  rw [place, reach] at filled
  rw [Code.bytes_enter, filled]
  cases rest with
  | none => simp [Tree.clause, restBytes, restEntry]
  | some rest => simp [Tree.clause, restBytes, restEntry]

/-- Branches that have been filled in lead to the end of the code. -/
theorem patchAll_ok
    {branches : List Jump}
    (done : patchAll branches before = .ok () after) :
    (∀ branch ∈ branches, (before.code.position : Int) - branch.address ≤ 32767) ∧
      after = { before with
        code.bytes :=
          Code.redirectAll before.code.bytes before.code.position branches } := by
  induction branches generalizing before with
  | nil =>
      obtain ⟨-, rfl⟩ := Stateful.pure_eq_ok.mp done
      exact ⟨by simp, rfl⟩
  | cons branch rest inductionHypothesis =>
      obtain ⟨_, patched, patching, done⟩ := Stateful.bind_eq_ok.mp done
      obtain ⟨-, near, rfl⟩ := Emit.patch_ok patching
      obtain ⟨restNear, rfl⟩ := inductionHypothesis done
      simp only [Code.position, Code.size_redirect] at restNear near ⊢
      exact ⟨List.forall_mem_cons.mpr ⟨near, restNear⟩, rfl⟩

/-- The first body, with branches left open at the end of a clause, becomes the
second by the code of what is left to be done and by filling in the branches. -/
def Body.Closes (before : Body) (exits : Exits) (source : List Statement) (after : Body) :
    Prop :=
  ∃ rest : Option Tree,
    Pool.Added before.pool after.pool ∧
    after.code = ⟨
      Code.redirectAll
        (Code.redirect before.code.bytes exits.next (before.code.position + restEntry rest))
        (before.code.position + (restBytes rest).length) exits.ends.toList ++
          (restBytes rest).toArray,
      before.code.depth,
      max before.code.maxDepth (before.code.depth + restPeak rest)⟩ ∧
    ((before.code.position + restEntry rest : Nat) : Int) - exits.next.address ≤ 32767 ∧
    (∀ branch ∈ exits.ends.toList,
      ((before.code.position + (restBytes rest).length : Nat) : Int) - branch.address ≤ 32767) ∧
    RestFits rest ∧
    ∀ pool, after.pool.Extends pool → RestTree pool before.slots source after.slots rest

/-- The branches left open are part of the code. -/
def Exits.Inside (exits : Exits) (code : Code) : Prop :=
  exits.next.address + 2 < code.bytes.size ∧
    ∀ branch ∈ exits.ends.toList, branch.address + 2 < code.bytes.size

/-- A conditional without an alternate is closed by filling in its branches. -/
theorem closeClauses_ok
    {exits : Exits}
    (sound : before.Sound)
    (done : closeClauses exits before = .ok () after) :
    before.Closes exits [] after := by
  obtain ⟨_, patched, patching, done⟩ := Stateful.bind_eq_ok.mp done
  obtain ⟨-, near, rfl⟩ := Emit.patch_ok patching
  obtain ⟨endsNear, rfl⟩ := patchAll_ok done
  have settled := sound.settled
  simp only [Code.Settled] at settled
  refine ⟨none, ⟨sound.pool, .refl _⟩, ?_, near, ?_, trivial, fun pool _ => ⟨rfl, rfl⟩⟩
  · simp only [Code.mk.injEq, restEntry, restBytes, restPeak, List.length_nil, Nat.add_zero,
      Int.add_zero, Code.position, Code.size_redirect, true_and]
    exact ⟨by simp, by omega⟩
  · simpa [Code.position, restBytes] using endsNear

/-- The code with a branch to the end, behind which the open branch is made to
lead. -/
def Code.switch (code : Code) (next : Jump) : Code :=
  { code with
    bytes := redirect code.bytes next (code.position + 3) ++ (hole .always).toArray }

@[simp] theorem Code.position_switch (code : Code) (next : Jump) :
    (code.switch next).position = code.position + 3 := by
  simp [switch, position]

/-- Between two clauses, a branch to the end is written, and the open branch is made to lead behind
it. -/
theorem switch_ok
    {exits : Exits}
    {finished : Jump}
    {ended : Body}
    (sound : before.Sound)
    (inside : exits.Inside before.code)
    (ending : Emit.jump .goto before = .ok finished ended)
    (patching : Emit.patch exits.next ended = .ok () after) :
    finished = ⟨before.code.position⟩ ∧
      ((before.code.position + 3 : Nat) : Int) - exits.next.address ≤ 32767 ∧
      after = { before with code := before.code.switch exits.next } := by
  obtain ⟨rfl, rfl⟩ := Emit.jump_ok .always ending
  obtain ⟨-, near, rfl⟩ := Emit.patch_ok patching
  have settled := sound.settled
  simp only [Code.Settled] at settled
  simp only [Code.position_grow, Code.length_hole] at near ⊢
  refine ⟨trivial, near, ?_⟩
  simp only [Code.switch, Code.grow, Test.change, Body.mk.injEq, Code.mk.injEq, true_and]
  refine ⟨⟨Code.redirect_append inside.1 _ _, ?_, ?_⟩, trivial⟩ <;> omega

/-- The rest has been written, and then all branches to the end filled in. -/
theorem Body.Closes.of_rest
    {exits : Exits}
    {source : List Statement}
    {tree : Tree}
    (inside : exits.Inside before.code)
    (nonempty : source ≠ [])
    (added : Pool.Added before.pool after.pool)
    (code : ∀ pool, after.pool.Extends pool →
      PartTree pool before.slots (.all source) after.slots tree)
    (fits : tree.Fits)
    (near : ((before.code.position + 3 : Nat) : Int) - exits.next.address ≤ 32767)
    (endsNear : ∀ branch ∈ (exits.ends.push ⟨before.code.position⟩).toList,
      ((before.code.position + (3 + tree.size) : Nat) : Int) - branch.address ≤ 32767)
    (written : after.code = ⟨
      Code.redirectAll ((before.code.switch exits.next).bytes ++ tree.bytes.toArray)
        (before.code.position + (3 + tree.size))
        (exits.ends.push ⟨before.code.position⟩).toList,
      before.code.depth, max before.code.maxDepth (before.code.depth + tree.peak)⟩) :
    before.Closes exits source after := by
  have length : (restBytes (some tree)).length = 3 + tree.size := by simp [restBytes]
  simp only [Array.toList_push, List.mem_append, List.mem_singleton] at endsNear
  have lastNear := endsNear _ (.inr rfl)
  dsimp only at lastNear
  refine ⟨some tree, added, ?_, near, ?_, ⟨fits, by omega⟩,
    fun pool extended => ⟨nonempty, code pool extended⟩⟩
  · have place : (Code.redirect before.code.bytes exits.next (before.code.position + 3)).size =
        before.code.position := Code.size_redirect _ _ _
    have endsInside : ∀ branch ∈ exits.ends.toList, branch.address + 2 <
        (Code.redirect before.code.bytes exits.next (before.code.position + 3)).size := by
      intro branch present
      rw [Code.size_redirect]
      exact inside.2 branch present
    have filled := Code.redirectAll_hole endsInside (before.code.position + (3 + tree.size))
      tree.bytes
    have reach : ((before.code.position + (3 + tree.size) : Nat) : Int) -
        before.code.position = 3 + tree.size := by
      omega
    rw [place, reach] at filled
    rw [written, length, restEntry, restPeak, restBytes, ← filled]
    simp [Code.switch]
  · intro branch present
    rw [length]
    exact endsNear branch (.inl present)

/-- The end of a conditional with an alternate, given what is written for that. -/
theorem closeWith_ok
    {exits : Exits}
    {alternate : List Statement}
    (sound : before.Sound)
    (inside : exits.Inside before.code)
    (nonempty : alternate ≠ [])
    (alternateExecutes : ∀ {first last : Body}, first.Sound →
      statements alternate first = .ok () last → first.Executes (.all alternate) last)
    (done : closeWith exits (statements alternate) before = .ok () after) :
    before.Closes exits alternate after := by
  obtain ⟨finished, ended, ending, done⟩ := Stateful.bind_eq_ok.mp done
  obtain ⟨_, patched, patching, done⟩ := Stateful.bind_eq_ok.mp done
  obtain ⟨rfl, near, rfl⟩ := switch_ok sound inside ending patching
  obtain ⟨_, bodied, bodying, done⟩ := Stateful.bind_eq_ok.mp done
  have switched : Body.Sound { before with code := before.code.switch exits.next } :=
    ⟨sound.pool, sound.settled⟩
  obtain ⟨tree, wrote, code⟩ := alternateExecutes switched bodying
  have flat : tree.effect = 0 := (code bodied.pool (.refl _)).effect
  obtain ⟨endsNear, rfl⟩ := patchAll_ok done
  have place : bodied.code.position = before.code.position + (3 + tree.size) := by
    rw [wrote.code, Code.position_extend, Code.position_switch]
    omega
  rw [place] at endsNear ⊢
  refine .of_rest inside nonempty wrote.pool code wrote.fits near endsNear ?_
  rw [wrote.code]
  simp only [Code.extend, Code.grow, flat, Int.add_zero]
  rfl

/-- The test and the body of a clause, given what is written for the body. -/
theorem clause_ok
    {test : Expression}
    {ends : Array Jump}
    {exits : Exits}
    (sound : before.Sound)
    (bodyExecutes : ∀ {first last : Body}, first.Sound →
      statements body first = .ok () last → first.Executes (.all body) last)
    (done : (do
      condition test
      let next ← Emit.jump .ifZero
      statements body
      return ⟨next, ends⟩ : Emit Exits) before = .ok exits after) :
    ∃ type testTree bodyTree, type ≠ .string ∧
      exits = ⟨⟨before.code.position + testTree.size⟩, ends⟩ ∧
      Pool.Added before.pool after.pool ∧
      after.code = before.code.enter testTree .zero bodyTree ∧
      testTree.Fits ∧ bodyTree.Fits ∧
      ∀ pool, after.pool.Extends pool →
        ExpressionTree pool before.slots test type testTree ∧
          PartTree pool before.slots (.all body) after.slots bodyTree := by
  obtain ⟨_, tested, testing, done⟩ := Stateful.bind_eq_ok.mp done
  obtain ⟨type, notText, testTree, testWrote, testSame, testCode⟩ := condition_ok sound testing
  obtain ⟨next, branched, branching, done⟩ := Stateful.bind_eq_ok.mp done
  obtain ⟨rfl, rfl⟩ := Emit.jump_ok .zero branching
  obtain ⟨_, bodied, bodying, done⟩ := Stateful.bind_eq_ok.mp done
  obtain ⟨rfl, rfl⟩ := Stateful.pure_eq_ok.mp done
  have branchedSound : Body.Sound { tested with
      code := tested.code.grow (Code.hole .zero) Test.zero.change Test.zero.change } :=
    ⟨testWrote.pool.sound, Code.settled_grow _ _ (le_refl _)⟩
  obtain ⟨bodyTree, bodyWrote, bodyCode⟩ := bodyExecutes branchedSound bodying
  refine ⟨type, testTree, bodyTree, notText, ?_, testWrote.pool.trans bodyWrote.pool, ?_,
    testWrote.fits, bodyWrote.fits, fun pool extended => ⟨?_, ?_⟩⟩
  · rw [testWrote.code, Code.position_extend]
  · rw [bodyWrote.code, testWrote.code]
    rfl
  · exact testCode pool (bodyWrote.pool.kept.trans extended)
  · have stands := bodyCode pool extended
    dsimp only at stands
    rwa [testSame] at stands

/-- When a clause has been closed, its code and that of the rest stand behind the
code before it, and the branches to the end lead behind them. -/
theorem Body.Closes.clause
    {between : Body}
    {testTree bodyTree : Tree}
    {ends : Array Jump}
    {source : List Statement}
    (testEffect : testTree.effect = 1)
    (bodyEffect : bodyTree.effect = 0)
    (entered : between.code = before.code.enter testTree .zero bodyTree)
    (inside : ∀ branch ∈ ends.toList, branch.address + 2 < before.code.bytes.size)
    (closes : between.Closes ⟨⟨before.code.position + testTree.size⟩, ends⟩ source after) :
    ∃ rest, Pool.Added between.pool after.pool ∧
      after.code = ⟨
        Code.redirectAll
          (before.code.bytes ++ (Tree.clause testTree bodyTree rest).bytes.toArray)
          (before.code.position + (Tree.clause testTree bodyTree rest).size) ends.toList,
        before.code.depth,
        max before.code.maxDepth
          (before.code.depth + (Tree.clause testTree bodyTree rest).peak)⟩ ∧
      3 + bodyTree.size + restEntry rest ≤ 32767 ∧
      (∀ branch ∈ ends.toList,
        ((before.code.position + (Tree.clause testTree bodyTree rest).size : Nat) : Int) -
          branch.address ≤ 32767) ∧
      RestFits rest ∧
      ∀ pool, after.pool.Extends pool →
        RestTree pool between.slots source after.slots rest := by
  obtain ⟨rest, added, written, near, endsNear, restFits, restCode⟩ := closes
  have place : between.code.position =
      before.code.position + (testTree.size + (3 + bodyTree.size)) := by
    rw [entered, Code.position_enter]
  have total : between.code.position + (restBytes rest).length =
      before.code.position + (Tree.clause testTree bodyTree rest).size := by
    rw [place, size_clause]
    omega
  rw [total] at written endsNear
  refine ⟨rest, added, ?_, ?_, endsNear, restFits, restCode⟩
  · have filled := redirect_clause before.code testTree bodyTree rest
    rw [← entered] at filled
    rw [written, ← filled, Code.redirectAll_append ?_]
    · have testPeak := testTree.effect_le_peak
      have bodyPeak := bodyTree.peak_nonneg
      rw [entered]
      simp only [Code.mk.injEq, true_and, Code.enter, Code.extend, Code.grow, testEffect,
        bodyEffect, Test.change]
      refine ⟨by omega, ?_⟩
      cases rest with
      | none =>
          simp only [restPeak, Tree.clause, Tree.peak, Test.change, testEffect]
          omega
      | some rest =>
          simp only [restPeak, Tree.clause, Tree.peak, Test.change, testEffect]
          omega
    · intro branch present
      have := inside branch present
      rw [Code.size_redirect, entered, Code.bytes_enter]
      simp only [Array.size_append]
      omega
  · dsimp only at near
    omega

/-- The first clause writes its test and its body, and leaves branches open that the rest closes. -/
theorem firstClause_ok
    {exits : Exits}
    {test : Expression}
    (sound : before.Sound)
    (bodyExecutes : ∀ {first last : Body}, first.Sound →
      statements body first = .ok () last → first.Executes (.all body) last)
    (done : firstClause test (statements body) before = .ok exits after) :
    after.Sound ∧ exits.Inside after.code ∧
      ∀ {elseIfs alternate last}, after.Closes exits (remaining elseIfs alternate) last →
        before.Executes (.one (.conditional test body elseIfs alternate)) last := by
  obtain ⟨type, testTree, bodyTree, notText, rfl, added, entered, testFits, bodyFits, code⟩ :=
    clause_ok sound bodyExecutes done
  obtain ⟨testStands, bodyStands⟩ := code after.pool (.refl _)
  refine ⟨⟨added.sound, ?_⟩, ⟨?_, by simp⟩, ?_⟩
  · rw [entered]
    exact Code.settled_extend _ _
  · rw [entered, Code.bytes_enter]
    simp only [Array.size_append, List.size_toArray, List.length_append, Code.length_hole,
      Tree.length_bytes, Code.position]
    omega
  · intro elseIfs alternate last closes
    obtain ⟨rest, restAdded, written, near, -, restFits, restCode⟩ :=
      closes.clause testStands.effect bodyStands.effect entered (by simp)
    have stands : ∀ pool, last.pool.Extends pool →
        PartTree pool before.slots (.one (.conditional test body elseIfs alternate)) last.slots
          (.clause testTree bodyTree rest) := by
      intro pool extended
      obtain ⟨testFinal, bodyFinal⟩ := code pool (restAdded.kept.trans extended)
      exact .conditional testFinal notText bodyFinal (restCode pool extended)
    have flat := (stands last.pool (.refl _)).effect
    refine ⟨_, ⟨added.trans restAdded, ?_, clause_fits testFits bodyFits restFits near⟩, stands⟩
    rw [written, Code.extend, Code.grow, flat, Int.add_zero]
    rfl

/-- A further clause closes the branches left open before it, once its own are closed. -/
theorem furtherClause_ok
    {exits later : Exits}
    {test : Expression}
    (sound : before.Sound)
    (inside : exits.Inside before.code)
    (bodyExecutes : ∀ {first last : Body}, first.Sound →
      statements body first = .ok () last → first.Executes (.all body) last)
    (done : furtherClause exits test (statements body) before = .ok later after) :
    after.Sound ∧ later.Inside after.code ∧
      ∀ {elseIfs alternate last}, after.Closes later (remaining elseIfs alternate) last →
        before.Closes exits [.conditional test body elseIfs alternate] last := by
  obtain ⟨finished, ended, ending, done⟩ := Stateful.bind_eq_ok.mp done
  obtain ⟨_, patched, patching, done⟩ := Stateful.bind_eq_ok.mp done
  obtain ⟨rfl, near, rfl⟩ := switch_ok sound inside ending patching
  have switched : Body.Sound { before with code := before.code.switch exits.next } :=
    ⟨sound.pool, sound.settled⟩
  obtain ⟨type, testTree, bodyTree, notText, rfl, added, entered, testFits, bodyFits, code⟩ :=
    clause_ok switched bodyExecutes done
  obtain ⟨testStands, bodyStands⟩ := code after.pool (.refl _)
  have switchedSize : (before.code.switch exits.next).bytes.size = before.code.bytes.size + 3 :=
    Code.position_switch before.code exits.next
  -- The branch to the end is one more to be filled in later.
  have endsInside : ∀ branch ∈ (exits.ends.push ⟨before.code.position⟩).toList,
      branch.address + 2 < (before.code.switch exits.next).bytes.size := by
    intro branch present
    rw [switchedSize]
    simp only [Array.toList_push, List.mem_append, List.mem_singleton] at present
    rcases present with earlier | rfl
    · have := inside.2 branch earlier
      omega
    · simp only [Code.position]
      omega
  have enteredSize : after.code.bytes.size =
      (before.code.switch exits.next).bytes.size + (testTree.size + (3 + bodyTree.size)) := by
    rw [entered]
    exact Code.position_enter _ _ _ _
  refine ⟨⟨added.sound, ?_⟩, ⟨?_, ?_⟩, ?_⟩
  · rw [entered]
    exact Code.settled_extend _ _
  · rw [enteredSize]
    simp only [Code.position]
    omega
  · intro branch present
    have := endsInside branch present
    omega
  · intro elseIfs alternate last closes
    obtain ⟨rest, restAdded, written, clauseNear, endsNear, restFits, restCode⟩ :=
      closes.clause testStands.effect bodyStands.effect entered endsInside
    have stands : ∀ pool, last.pool.Extends pool →
        PartTree pool before.slots (.all [.conditional test body elseIfs alternate]) last.slots
          (.seq (.clause testTree bodyTree rest) .empty) := by
      intro pool extended
      obtain ⟨testFinal, bodyFinal⟩ := code pool (restAdded.kept.trans extended)
      exact .cons (.conditional testFinal notText bodyFinal (restCode pool extended)) .nil
    have total : before.code.position + (3 + (Tree.seq (.clause testTree bodyTree rest)
        .empty).size) = (before.code.switch exits.next).position +
          (Tree.clause testTree bodyTree rest).size := by
      rw [Code.position_switch]
      simp only [Tree.size]
      omega
    have peakEq : (Tree.seq (.clause testTree bodyTree rest) .empty).peak =
        (Tree.clause testTree bodyTree rest).peak := by
      have := (Tree.clause testTree bodyTree rest).effect_le_peak
      simp only [Tree.peak, Int.add_zero]
      omega
    refine .of_rest inside (by simp) (added.trans restAdded) stands
      ⟨clause_fits testFits bodyFits restFits clauseNear, trivial⟩ near ?_ ?_
    · rw [total]
      exact endsNear
    · rw [total, peakEq, written, Tree.bytes_seq, Tree.bytes_empty, List.append_nil]
      rfl

end Compile
end Pictogram
