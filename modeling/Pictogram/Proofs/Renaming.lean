import Pictogram.Proofs.Code.Plain
import Pictogram.Proofs.Code.Relabel
import Pictogram.Proofs.Source.Relabel
import Mathlib.SetTheory.Cardinal.Arithmetic

/-!
# Names and positions do not matter

A program whose variables have other names, and whose parts stand in other places, runs and
is compiled like the program.  Names are only told apart, and positions only reported.
-/

namespace Pictogram

/-- The second program is the first one with other names for its variables, and anything else
for its positions. -/
def Program.Renames (rename : String → String) (program renamed : Program) : Prop :=
  Program.relabel (.unplaced id) renamed = Program.relabel (.unplaced rename) program

/-! ## Names that a program does not have -/

/-- Names that are told apart in a program can be told apart everywhere. -/
theorem exists_injective_extension
    {rename : String → String}
    {names : List String}
    (injective : Set.InjOn rename {name | name ∈ names}) :
    ∃ extended : String → String, extended.Injective ∧
      ∀ name ∈ names, extended name = rename name := by
  have finite : Cardinal.mk {name | name ∈ names} < Cardinal.mk String :=
    (Cardinal.lt_aleph0_iff_set_finite.mpr (List.finite_toSet names)).trans_le
      (Cardinal.aleph0_le_mk String)
  obtain ⟨extended, agrees⟩ := Cardinal.extend_function_of_lt
    ⟨fun name => rename name, injective.injective⟩ finite ⟨Equiv.refl String⟩
  exact ⟨extended, extended.injective, fun name present => agrees ⟨name, present⟩⟩

/-- There is always another name. -/
theorem exists_fresh (names : List String) : ∃ fresh, fresh ∉ names := by
  obtain ⟨fresh, absent⟩ := Infinite.exists_notMem_finset names.toFinset
  exact ⟨fresh, by simpa using absent⟩

/-- Names that a program does not have can be exchanged in it. -/
theorem Program.relabel_swap
    {program : Program}
    {first second : String}
    (firstAbsent : first ∉ Program.names program)
    (secondAbsent : second ∉ Program.names program) :
    Program.relabel (.unplaced (Equiv.swap first second)) program =
      Program.relabel (.unplaced id) program := by
  refine Program.relabel_congr fun name present => ?_
  refine Equiv.swap_apply_of_ne_of_ne ?_ ?_
  · rintro rfl
    exact firstAbsent present
  · rintro rfl
    exact secondAbsent present

namespace Evaluate

/-- The names that a fault is about. -/
def Fault.names : Fault → List String
  | .undeclared name | .redeclared name => [name]
  | .mismatch .. | .notNegatable _ | .rangeNotNumeric _ => []

/-- A fault is renamed by what happens to the names that it is about. -/
theorem Fault.rename_congr
    {fault : Fault}
    {first second : String → String}
    (same : ∀ name ∈ fault.names, first name = second name) :
    fault.rename first = fault.rename second := by
  cases fault with
  | undeclared name | redeclared name => simp [Fault.rename, same name (by simp [names])]
  | mismatch | notNegatable | rangeNotNumeric => rfl

/-- A renaming that keeps a fault keeps its names. -/
theorem Fault.eq_of_rename_eq
    {fault : Fault}
    {first second : String → String}
    (same : fault.rename first = fault.rename second) :
    ∀ name ∈ fault.names, first name = second name := by
  cases fault with
  | undeclared name | redeclared name => simpa [names, Fault.rename] using same
  | mismatch | notNegatable | rangeNotNumeric => simp [names]

/-- The fault of a run that has ended early, unless it has used up its rounds. -/
def Halt.fault? : Halt → Option Fault
  | .error found => some found.fault
  | .exhausted => none

/-- The fault of a relabelled run is the renamed fault. -/
theorem Halt.fault?_relabel (relabel : Relabel) (halt : Halt) :
    (halt.relabel relabel).fault? = halt.fault?.map (Fault.rename relabel.name) := by
  cases halt <;> rfl

end Evaluate

/-- The names that a run leaves bound, or reports. -/
structure RunReport.Within (report : RunReport) (names : List String) : Prop where
  bound : ∀ binding ∈ report.store.bindings, binding.1 ∈ names
  reported : ∀ halt ∈ report.halt, ∀ fault ∈ halt.fault?, ∀ name ∈ fault.names, name ∈ names

/-- Names that a program does not have can be exchanged in what it leaves behind. -/
theorem Evaluate.program_swap
    {program : Program}
    {first second : String}
    (firstAbsent : first ∉ Program.names program)
    (secondAbsent : second ∉ Program.names program)
    (limit : Nat) :
    (Evaluate.program limit .empty program).relabel (.unplaced (Equiv.swap first second)) =
      (Evaluate.program limit .empty program).relabel (.unplaced id) := by
  have swapped : Evaluate.program limit .empty
      (Program.relabel (.unplaced (Equiv.swap first second)) program) = _ :=
    program_relabel (Equiv.injective _) limit .empty program
  have kept : Evaluate.program limit .empty (Program.relabel (.unplaced id) program) = _ :=
    program_relabel Function.injective_id limit .empty program
  rw [Program.relabel_swap firstAbsent secondAbsent] at swapped
  exact swapped.symm.trans kept

/-- A run only binds and reports the names of its program. -/
theorem Evaluate.program_within (limit : Nat) (program : Program) :
    (Evaluate.program limit .empty program).Within (Program.names program) := by
  constructor
  · intro binding present
    by_contra absent
    obtain ⟨fresh, isFresh⟩ := exists_fresh (Program.names program ++
      (Evaluate.program limit .empty program).store.bindings.map Prod.fst)
    rw [List.mem_append, not_or] at isFresh
    have same := congrArg RunReport.store (program_swap absent isFresh.1 limit)
    simp only [RunReport.relabel, Relabel.unplaced, Store.rename_id] at same
    -- The fresh name is bound in place of the other one, and so it is not fresh.
    have moved : (fresh, binding.2) ∈ ((Evaluate.program limit .empty program).store.rename
        (Equiv.swap binding.1 fresh)).bindings :=
      List.mem_map.mpr ⟨binding, present, by simp⟩
    rw [same] at moved
    exact isFresh.2 (List.mem_map_of_mem (f := Prod.fst) moved)
  · intro halt isHalt fault isFault name present
    by_contra absent
    obtain ⟨fresh, isFresh⟩ := exists_fresh (name :: Program.names program)
    rw [List.mem_cons, not_or] at isFresh
    have same := congrArg RunReport.halt (program_swap absent isFresh.2 limit)
    simp only [RunReport.relabel, Option.mem_def.mp isHalt, Option.map_some,
      Option.some.injEq] at same
    have sameFault := congrArg Halt.fault? same
    rw [Halt.fault?_relabel, Halt.fault?_relabel, Option.mem_def.mp isFault, Option.map_some,
      Option.map_some, Option.some.injEq] at sameFault
    have swapped := Fault.eq_of_rename_eq sameFault name present
    exact isFresh.1 (by simpa [Relabel.unplaced] using swapped)

/-! ## Names in errors of the compilation -/

namespace Compile

/-- The names that an error is about. -/
def Error.names : Error → List String
  | .undeclared name _ | .redeclared name _ => [name]
  | _ => []

/-- An error is renamed by what happens to the names that it is about. -/
theorem Error.relabel_unplaced_congr
    {error : Error}
    {first second : String → String}
    (same : ∀ name ∈ error.names, first name = second name) :
    error.relabel (.unplaced first) = error.relabel (.unplaced second) := by
  cases error with
  | undeclared name | redeclared name =>
      simp [Error.relabel, Relabel.unplaced, same name (by simp [names])]
  | _ => rfl

/-- Two renamings of an error tell what happens to the names that it is about. -/
theorem Error.eq_of_relabel_unplaced_eq
    {error : Error}
    {first second : String → String}
    (same : error.relabel (.unplaced first) = error.relabel (.unplaced second)) :
    ∀ name ∈ error.names, first name = second name := by
  cases error with
  | undeclared name | redeclared name =>
      simpa [names, Error.relabel, Relabel.unplaced] using same
  | _ => simp [names]

/-- What is refused is reported with names of the program. -/
theorem names_of_classBytes
    {options : Options}
    {program : Program}
    {error : Error}
    (refused : classBytes options program = .error error) :
    ∀ name ∈ error.names, name ∈ Program.names program := by
  intro name present
  by_contra absent
  obtain ⟨fresh, isFresh⟩ := exists_fresh (name :: Program.names program)
  rw [List.mem_cons, not_or] at isFresh
  have swapped : classBytes options (Program.relabel (.unplaced (Equiv.swap name fresh)) program) =
      _ := classBytes_relabel (Equiv.injective _) options program
  have kept : classBytes options (Program.relabel (.unplaced id) program) = _ :=
    classBytes_relabel Function.injective_id options program
  rw [Program.relabel_swap absent isFresh.2, kept, refused] at swapped
  have same := Error.eq_of_relabel_unplaced_eq (Except.error.inj swapped) name present
  exact isFresh.1 (by simpa using same.symm)

end Compile

/-! ## Programs with other names -/

/-- What a run leaves behind, and what is left with other names: the same lines, the same end,
and the same values. -/
structure RunReport.Corresponds
    (rename : String → String)
    (first second : RunReport) : Prop where
  /-- The same lines are printed. -/
  lines_eq : second.lines = first.lines
  /-- Both come to their end, or use up their rounds, or fail with the same fault. -/
  fault_eq : second.halt.map Evaluate.Halt.fault? =
    first.halt.map fun halt => halt.fault?.map (Evaluate.Fault.rename rename)
  /-- The same values are bound. -/
  get?_iff : ∀ name value, second.store.get? name = some value ↔
    ∃ original, rename original = name ∧ first.store.get? original = some value

/-- Only bound names have a value. -/
theorem Store.mem_of_get?
    {store : Store}
    {name : String}
    {value : Value}
    (read : store.get? name = some value) :
    (name, value) ∈ store.bindings := by
  obtain ⟨before, after, split, -⟩ := List.lookup_eq_some_iff.mp read
  simp [split]

/-- A store with other names has the same values. -/
theorem Store.get?_rename_iff
    {extended rename : String → String}
    {store : Store}
    (injective : extended.Injective)
    (agrees : ∀ binding ∈ store.bindings, extended binding.1 = rename binding.1)
    (name : String)
    (value : Value) :
    (store.rename extended).get? name = some value ↔
      ∃ original, rename original = name ∧ store.get? original = some value := by
  constructor
  · intro read
    obtain ⟨binding, present, isBinding⟩ := List.mem_map.mp (mem_of_get? read)
    obtain rfl : extended binding.1 = name := congrArg Prod.fst isBinding
    rw [get?_rename injective] at read
    exact ⟨binding.1, (agrees binding present).symm, read⟩
  · rintro ⟨original, rfl, read⟩
    rw [← agrees (original, value) (mem_of_get? read), get?_rename injective]
    exact read

/-- Only what a renaming does to the names of the program matters. -/
theorem Program.Renames.relabel_eq
    {rename extended : String → String}
    {program renamed : Program}
    (renames : Program.Renames rename program renamed)
    (agrees : ∀ name ∈ Program.names program, extended name = rename name) :
    Program.relabel (.unplaced extended) program = Program.relabel (.unplaced id) renamed :=
  (Program.relabel_congr agrees).trans renames.symm

/-- A renamed program runs as the program does, if its names are kept apart. -/
theorem Program.Renames.corresponds
    {rename : String → String}
    {program renamed : Program}
    (renames : Program.Renames rename program renamed)
    (injective : Set.InjOn rename {name | name ∈ Program.names program})
    (limit : Nat) :
    (Evaluate.program limit .empty program).Corresponds rename
      (Evaluate.program limit .empty renamed) := by
  obtain ⟨extended, isInjective, agrees⟩ := exists_injective_extension injective
  have within := Evaluate.program_within limit program
  have first : Evaluate.program limit .empty (Program.relabel (.unplaced extended) program) = _ :=
    Evaluate.program_relabel isInjective limit .empty program
  have second : Evaluate.program limit .empty (Program.relabel (.unplaced id) renamed) = _ :=
    Evaluate.program_relabel Function.injective_id limit .empty renamed
  rw [renames.relabel_eq agrees, second] at first
  obtain ⟨sameStore, sameLines, sameHalt⟩ := RunReport.mk.inj first
  refine ⟨sameLines, ?_, ?_⟩
  · have sameFault := congrArg (Option.map Evaluate.Halt.fault?) sameHalt
    have kept : Evaluate.Fault.rename (Relabel.unplaced id).name = id :=
      funext Evaluate.Fault.rename_id
    simp only [Option.map_map, Function.comp_def, Evaluate.Halt.fault?_relabel, kept,
      Option.map_id_apply] at sameFault
    refine sameFault.trans (Option.map_congr fun halt isHalt => ?_)
    refine Option.map_congr fun fault isFault => ?_
    refine Evaluate.Fault.rename_congr fun name present => ?_
    exact agrees name (within.reported halt isHalt fault isFault name present)
  · rw [show (Evaluate.program limit .empty renamed).store =
      (Evaluate.program limit .empty program).store.rename extended from
      (Store.rename_id _).symm.trans sameStore]
    exact Store.get?_rename_iff isInjective fun binding present =>
      agrees _ (within.bound binding present)

/-- A renamed program has the same class, or is refused in the same way. -/
theorem Program.Renames.classBytes_eq
    {rename : String → String}
    {program renamed : Program}
    (renames : Program.Renames rename program renamed)
    (injective : Set.InjOn rename {name | name ∈ Program.names program})
    (options : Compile.Options) :
    (Compile.classBytes options renamed).mapError (·.relabel (.unplaced id)) =
      (Compile.classBytes options program).mapError (·.relabel (.unplaced rename)) := by
  obtain ⟨extended, isInjective, agrees⟩ := exists_injective_extension injective
  have first : Compile.classBytes options (Program.relabel (.unplaced extended) program) = _ :=
    Compile.classBytes_relabel isInjective options program
  have second : Compile.classBytes options (Program.relabel (.unplaced id) renamed) = _ :=
    Compile.classBytes_relabel Function.injective_id options renamed
  rw [renames.relabel_eq agrees, second] at first
  rw [first]
  cases refused : Compile.classBytes options program with
  | ok bytes => rfl
  | error error =>
      refine congrArg Except.error (Compile.Error.relabel_unplaced_congr fun name present => ?_)
      exact agrees name (Compile.names_of_classBytes refused name present)

/-- Names are only told apart, and positions only reported.  Of two programs, the second of which
has other names for the variables of the first and anything for its positions, both print the
same lines from a store without variables, and both come to their end, use up their rounds or
fail with the same fault, and leave the same values under the names that correspond.  Either
both have the same class, byte by byte, or both are refused for the same reason. -/
theorem Program.Renames.same_behaviour
    {rename : String → String}
    {program renamed : Program}
    (renames : Program.Renames rename program renamed)
    (injective : Set.InjOn rename {name | name ∈ Program.names program}) :
    (∀ limit, (Evaluate.program limit .empty program).Corresponds rename
      (Evaluate.program limit .empty renamed)) ∧
    ∀ options,
      (∃ bytes, Compile.classBytes options program = .ok bytes ∧
        Compile.classBytes options renamed = .ok bytes) ∨
      ∃ error other, Compile.classBytes options program = .error error ∧
        Compile.classBytes options renamed = .error other ∧
        other.relabel (.unplaced id) = error.relabel (.unplaced rename) := by
  refine ⟨renames.corresponds injective, fun options => ?_⟩
  have same := renames.classBytes_eq injective options
  cases first : Compile.classBytes options program with
  | ok bytes =>
      cases second : Compile.classBytes options renamed with
      | ok others =>
          rw [first, second] at same
          obtain rfl := Except.ok.inj same
          exact .inl ⟨others, rfl, rfl⟩
      | error other =>
          rw [first, second] at same
          cases same
  | error error =>
      cases second : Compile.classBytes options renamed with
      | ok others =>
          rw [first, second] at same
          cases same
      | error other =>
          rw [first, second] at same
          exact .inr ⟨error, other, rfl, rfl, Except.error.inj same⟩

/-- A renaming that exchanges two names, and takes every other name for the first of them. -/
def exchange (name : String) : String := if name = "x" then "y" else "x"

/-- A program that reads a variable which it has not declared. -/
def readsUndeclared (declared read : String) (place : Position) : Program :=
  [.declare ⟨declared, place⟩ (some (.literal (.boolean true) place)),
    .print (.name ⟨declared, place⟩) place, .evaluate (.name ⟨read, ⟨3, 1⟩⟩)]

/-- A program that reads the one variable that it declares. -/
def readsDeclared (name : String) (place : Position) : Program :=
  [.declare ⟨name, place⟩ (some (.literal (.boolean true) place)), .evaluate (.name ⟨name, place⟩)]

/-- With the names exchanged, the one program reports the other name, and the other program has
the same class. -/
theorem same_behaviour_exchange :
    Program.Renames exchange (readsUndeclared "x" "y" ⟨1, 2⟩) (readsUndeclared "y" "x" ⟨7, 7⟩) ∧
    (Evaluate.program 1 .empty (readsUndeclared "x" "y" ⟨1, 2⟩)).Corresponds exchange
      (Evaluate.program 1 .empty (readsUndeclared "y" "x" ⟨7, 7⟩)) ∧
    (Evaluate.program 1 .empty (readsUndeclared "y" "x" ⟨7, 7⟩)).halt.map
      Evaluate.Halt.fault? = some (some (.undeclared "x")) ∧
    Program.Renames exchange (readsDeclared "x" ⟨1, 2⟩) (readsDeclared "y" ⟨7, 7⟩) ∧
    ∃ bytes, Compile.classBytes .default (readsDeclared "x" ⟨1, 2⟩) = .ok bytes ∧
      Compile.classBytes .default (readsDeclared "y" ⟨7, 7⟩) = .ok bytes := by
  have renames : Program.Renames exchange (readsUndeclared "x" "y" ⟨1, 2⟩)
      (readsUndeclared "y" "x" ⟨7, 7⟩) := rfl
  have told : ∀ first ∈ ["x", "x", "y"], ∀ second ∈ ["x", "x", "y"],
      exchange first = exchange second → first = second := by decide
  have behaves := (renames.same_behaviour fun first isFirst second isSecond =>
    told first isFirst second isSecond).1 1
  have renamesDeclared : Program.Renames exchange (readsDeclared "x" ⟨1, 2⟩)
      (readsDeclared "y" ⟨7, 7⟩) := rfl
  have compiled := (renamesDeclared.same_behaviour fun first isFirst second isSecond =>
    told first (List.mem_append_left ["y"] isFirst) second
      (List.mem_append_left ["y"] isSecond)).2 .default
  -- The code of the program needs no constants, so the program is not refused.
  have code : Compile.HasPlainCode (readsDeclared "x" ⟨1, 2⟩) [0x04, 0x3C, 0x1B, 0x57, 0xB1] :=
    fun _ => ⟨_, rfl, rfl, rfl⟩
  obtain ⟨_, written⟩ := Compile.exists_classBytes .default (by decide) (by decide)
  obtain ⟨bytes, accepted, -⟩ := written _ _ code (by decide)
  refine ⟨renames, behaves, behaves.fault_eq.trans rfl, renamesDeclared,
    compiled.resolve_right ?_⟩
  rintro ⟨error, -, refused, -⟩
  cases accepted.symm.trans refused

end Pictogram
