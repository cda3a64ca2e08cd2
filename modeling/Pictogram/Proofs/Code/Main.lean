import Pictogram.Compile
import Pictogram.Proofs.Code.Conditional

/-!
# The code of a program

The method `main` of the class of a program has the code that belongs to the
program, followed by a return, and states how high the stack gets in it.
-/

namespace Pictogram
namespace Compile

open Pictogram.Class (Pool)
open Machine (Order Routine)

mutual

/-- The generator writes the code that belongs to a statement. -/
theorem statement_ok : (source : Statement) → ∀ {before after : Body}, before.Sound →
    statement source before = .ok () after → before.Executes (.one source) after
  | .print _ _ => fun sound done => print_ok sound done
  | .declare _ _ => fun sound done => declaration_ok sound done
  | .conditional _ body elseIfs alternate => fun sound done => by
      obtain ⟨exits, entered, entering, done⟩ := Stateful.bind_eq_ok.mp done
      obtain ⟨later, between, going, done⟩ := Stateful.bind_eq_ok.mp done
      obtain ⟨enteredSound, inside, closed⟩ :=
        firstClause_ok sound (statements_ok body) entering
      exact closed (clauses_ok elseIfs alternate (statements_ok alternate) enteredSound inside
        going done)
  | .count _ _ _ body => fun sound done => count_ok sound (statements_ok body) done
  | .loop _ body => fun sound done => loop_ok sound (statements_ok body) done
  | .evaluate _ => fun sound done => effect_ok sound done

/-- Further clauses and the alternate close a clause. -/
theorem clauses_ok : (elseIfs : List Clause) → (alternate : List Statement) →
    (∀ {first last : Body}, first.Sound → statements alternate first = .ok () last →
      first.Executes (.all alternate) last) →
    ∀ {before between after : Body} {exits later : Exits}, before.Sound →
    exits.Inside before.code → clauses exits elseIfs before = .ok later between →
    (if alternate.isEmpty then closeClauses later
      else closeWith later (statements alternate)) between = .ok () after →
    before.Closes exits (remaining elseIfs alternate) after
  | [], alternate => fun alternateExecutes _ _ _ _ _ sound inside going done => by
      obtain ⟨rfl, rfl⟩ := Stateful.pure_eq_ok.mp going
      cases alternate with
      | nil => exact closeClauses_ok sound done
      | cons first rest => exact closeWith_ok sound inside (List.cons_ne_nil first rest) alternateExecutes done
  | .mk _ body :: rest, alternate => fun alternateExecutes _ _ _ _ _ sound inside going done => by
      obtain ⟨exits, entered, entering, going⟩ := Stateful.bind_eq_ok.mp going
      obtain ⟨enteredSound, enteredInside, closed⟩ :=
        furtherClause_ok sound inside (statements_ok body) entering
      exact closed (clauses_ok rest alternate alternateExecutes enteredSound enteredInside going
        done)

/-- The generator writes the code that belongs to statements. -/
theorem statements_ok : (source : List Statement) → ∀ {before after : Body}, before.Sound →
    statements source before = .ok () after → before.Executes (.all source) after
  | [] => fun sound done => by
      obtain ⟨-, rfl⟩ := Stateful.pure_eq_ok.mp done
      exact ⟨.empty, .refl sound, fun _ _ => .nil⟩
  | first :: rest => fun sound done => by
      obtain ⟨_, between, going, done⟩ := Stateful.bind_eq_ok.mp done
      obtain ⟨firstTree, firstWrote, firstCode⟩ := statement_ok first sound going
      obtain ⟨restTree, restWrote, restCode⟩ := statements_ok rest firstWrote.sound done
      exact ⟨_, firstWrote.seq restWrote, fun pool extended =>
        .cons (firstCode pool (restWrote.pool.kept.trans extended)) (restCode pool extended)⟩

end

/-- The constructor is named as one, and only adds to the pool. -/
theorem constructor_ok
    {pool after : Pool}
    {codeName : UInt16}
    {method : Class.Method}
    (sound : pool.Sound)
    (made : constructor codeName pool = .ok method after) :
    Pool.Added pool after ∧ after.text? method.name = some "<init>" := by
  obtain ⟨superConstructor, referred, referring, made⟩ := Stateful.bind_eq_ok.mp made
  obtain ⟨referredAdded, -⟩ := Pool.methodRef_ok sound referring
  obtain ⟨name, named, naming, made⟩ := Stateful.bind_eq_ok.mp made
  obtain ⟨namedAdded, nameStands⟩ := Pool.text_ok referredAdded.sound naming
  obtain ⟨descriptor, described, describing, made⟩ := Stateful.bind_eq_ok.mp made
  obtain ⟨describedAdded, -⟩ := Pool.text_ok namedAdded.sound describing
  obtain ⟨rfl, rfl⟩ := Stateful.pure_eq_ok.mp made
  exact ⟨(referredAdded.trans namedAdded).trans describedAdded,
    describedAdded.kept.text? nameStands⟩

/-- The opening holds the constructor, and only adds to the pool. -/
theorem opening_ok
    {options : Options}
    {pool after : Pool}
    {opened : Opening}
    (sound : pool.Sound)
    (made : opening options pool = .ok opened after) :
    Pool.Added pool after ∧ after.text? opened.constructor.name = some "<init>" := by
  obtain ⟨thisClass, first, addingThis, made⟩ := Stateful.bind_eq_ok.mp made
  obtain ⟨firstAdded, -⟩ := Pool.classRef_ok sound addingThis
  obtain ⟨superClass, second, addingSuper, made⟩ := Stateful.bind_eq_ok.mp made
  obtain ⟨secondAdded, -⟩ := Pool.classRef_ok firstAdded.sound addingSuper
  obtain ⟨codeName, third, addingName, made⟩ := Stateful.bind_eq_ok.mp made
  obtain ⟨thirdAdded, -⟩ := Pool.text_ok secondAdded.sound addingName
  obtain ⟨method, fourth, making, made⟩ := Stateful.bind_eq_ok.mp made
  obtain ⟨fourthAdded, nameStands⟩ := constructor_ok thirdAdded.sound making
  obtain ⟨rfl, rfl⟩ := Stateful.pure_eq_ok.mp made
  exact ⟨(firstAdded.trans secondAdded).trans (thirdAdded.trans fourthAdded), nameStands⟩

/-- The closing holds the main method with the code of the draft, and only adds to the pool. -/
theorem closing_ok
    {options : Options}
    {draft : Draft}
    {pool after : Pool}
    {main : Class.Method}
    {attributes : List Class.Attribute}
    (sound : pool.Sound)
    (made : closing options draft pool = .ok (main, attributes) after) :
    Pool.Added pool after ∧ after.text? main.name = some "main" ∧
      main.attributes =
        [.code draft.opening.codeName draft.maxStack draft.maxLocals draft.code []] := by
  obtain ⟨name, first, naming, made⟩ := Stateful.bind_eq_ok.mp made
  obtain ⟨firstAdded, nameStands⟩ := Pool.text_ok sound naming
  obtain ⟨descriptor, second, describing, made⟩ := Stateful.bind_eq_ok.mp made
  obtain ⟨secondAdded, -⟩ := Pool.text_ok firstAdded.sound describing
  obtain ⟨sourceName, third, addingSource, made⟩ := Stateful.bind_eq_ok.mp made
  obtain ⟨thirdAdded, -⟩ := Pool.text_ok secondAdded.sound addingSource
  obtain ⟨sourceFile, fourth, addingFile, made⟩ := Stateful.bind_eq_ok.mp made
  obtain ⟨fourthAdded, -⟩ := Pool.text_ok thirdAdded.sound addingFile
  obtain ⟨same, rfl⟩ := Stateful.pure_eq_ok.mp made
  obtain ⟨rfl, rfl⟩ := Prod.mk.inj same
  have later := (secondAdded.kept.trans thirdAdded.kept).trans fourthAdded.kept
  exact ⟨(firstAdded.trans secondAdded).trans (thirdAdded.trans fourthAdded),
    later.text? nameStands, rfl⟩

/-- The code of a program as a method states it. -/
structure MainCode (program : Program) (routine : Routine) (tree : Tree) (slots : Slots) :
    Prop where
  /-- The code belongs to the program. -/
  code : PartTree routine.pool .empty (.all program) slots tree
  /-- The offsets of branches can be written. -/
  fits : tree.Fits
  /-- The bytes are those of the code and a return. -/
  bytes : routine.code = (Tree.seq tree (.plain .leave)).bytes
  /-- There are not too many of them. -/
  size_lt : tree.size < 65535
  /-- The height of the stack is stated. -/
  maxStack : (routine.maxStack.toNat : Int) = tree.peak
  /-- The number of locals is stated. -/
  maxLocals : routine.maxLocals.toNat = slots.next

/-- The limit of the stated height is never met. -/
theorem toNat_maxStack
    {code : Code}
    (nonneg : 0 ≤ code.maxDepth)
    (small : code.maxDepth ≤ 65535) :
    (code.maxStack.toNat : Int) = code.maxDepth := by
  have least : min code.maxDepth.toNat 65535 = code.maxDepth.toNat := by omega
  rw [Code.maxStack, least, UInt16.toNat_ofNat_of_lt']
  · omega
  · show code.maxDepth.toNat < 65536
    omega

/-- The body of the main method is the code of the program, followed by a return. -/
theorem mainBody_ok
    {program : Program}
    {pool : Pool}
    {after : Body}
    (sound : pool.Sound)
    (made : mainBody program (.empty pool) = .ok () after) :
    ∃ tree, Body.Wrote (.empty pool) (.seq tree (.plain .leave)) after ∧
      ∀ later, after.pool.Extends later →
        PartTree later .empty (.all program) after.slots tree := by
  have emptySound : (Body.empty pool).Sound := ⟨sound, le_refl _⟩
  obtain ⟨_, written, writing, made⟩ := Stateful.bind_eq_ok.mp made
  obtain ⟨tree, wrote, code⟩ := statements_ok program emptySound writing
  obtain ⟨leaveWrote, same⟩ := Emit.instruction_ok wrote.sound rfl rfl made
  refine ⟨tree, wrote.seq leaveWrote, fun later extended => ?_⟩
  rw [same]
  exact code later (leaveWrote.pool.kept.trans extended)

/-- What a finished body of a method is made of. -/
theorem Body.Wrote.main_eq
    {pool : Pool}
    {tree : Tree}
    {after : Body}
    (wrote : Body.Wrote (.empty pool) (.seq tree (.plain .leave)) after)
    (flat : tree.effect = 0) :
    after.code = ⟨(Tree.seq tree (.plain .leave)).bytes.toArray, 0, tree.peak⟩ := by
  have nonneg := tree.peak_nonneg
  rw [wrote.code]
  simp only [Body.empty, Code.empty, Code.extend, Code.grow, Tree.effect, Tree.peak, flat,
    Order.change_leave, Code.mk.injEq]
  refine ⟨by simp, by omega, by omega⟩

/-- A draft has a sound pool, a constructor and the code of the program, in every later pool. -/
theorem draft_ok
    {options : Options}
    {program : Program}
    {drafted : Draft}
    (made : draft options program = .ok drafted) :
    drafted.pool.Sound ∧
      drafted.pool.text? drafted.opening.constructor.name = some "<init>" ∧
      ∃ tree slots, ∀ later, drafted.pool.Extends later →
        MainCode program ⟨drafted.code, later, drafted.maxStack, drafted.maxLocals⟩
          tree slots := by
  unfold draft at made
  cases opened : opening options .empty with
  | error error pool =>
      rw [opened] at made
      cases made
  | ok opening pool =>
      obtain ⟨openedAdded, constructorNamed⟩ := opening_ok Pool.sound_empty opened
      cases written : mainBody program (.empty pool) with
      | error error body =>
          simp only [opened, written] at made
          cases made
      | ok done body =>
          obtain ⟨tree, wrote, code⟩ := mainBody_ok openedAdded.sound written
          simp only [opened, written, Code.finish] at made
          by_cases within : body.code.bytes.size ≤ Code.sizeLimit
          · rw [if_pos within] at made
            obtain rfl := Except.ok.inj made
            have standing := code body.pool (.refl _)
            have codeIs := wrote.main_eq standing.effect
            have valid := standing.grows.valid Slots.valid_empty
            have size : tree.size + 1 ≤ 65535 := by
              rw [codeIs] at within
              simpa [Code.sizeLimit, Tree.size, Order.size, Order.bytes, Order.leave] using within
            have nonneg := tree.peak_nonneg
            have low := tree.effect_and_peak_le_size.2
            refine ⟨wrote.pool.sound, wrote.pool.kept.text? constructorNamed, tree, body.slots,
              fun later extended => ⟨code later extended, wrote.fits.1, ?_, size, ?_, ?_⟩⟩
            · show body.code.bytes.toList = _
              rw [codeIs]
            · show (body.code.maxStack.toNat : Int) = _
              rw [codeIs]
              exact toNat_maxStack nonneg (by dsimp only; omega)
            · have few : body.slots.next < UInt16.size :=
                Nat.lt_of_le_of_lt valid.next_le (by decide)
              exact UInt16.toNat_ofNat_of_lt' few
          · rw [if_neg within] at made
            cases made

/-- The class of a program has a method `main` with the code of the program. -/
theorem classFile_ok
    {options : Options}
    {program : Program}
    {file : Class.File}
    (made : classFile options program = .ok file) :
    ∃ routine tree slots, file.routine? "main" = some routine ∧
      MainCode program routine tree slots := by
  unfold classFile at made
  cases drafted : draft options program with
  | error error =>
      rw [drafted] at made
      cases made
  | ok drafted' =>
      rw [drafted] at made
      obtain ⟨sound, constructorNamed, tree, slots, code⟩ := draft_ok drafted
      change Draft.classFile drafted' options = .ok file at made
      unfold Draft.classFile at made
      cases closed : closing options drafted' drafted'.pool with
      | error error pool =>
          rw [closed] at made
          cases made
      | ok result pool =>
          obtain ⟨main, attributes⟩ := result
          obtain ⟨added, mainNamed, mainAttributes⟩ := closing_ok sound closed
          rw [closed] at made
          obtain rfl := Except.ok.inj made
          refine ⟨_, tree, slots, ?_, code pool added.kept⟩
          -- The constructor comes first, but it has another name.
          simp [Class.File.routine?, added.kept.text? constructorNamed, mainNamed, mainAttributes]

end Compile
end Pictogram
