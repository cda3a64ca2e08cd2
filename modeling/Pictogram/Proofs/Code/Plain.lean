import Pictogram.Proofs.Class.RoundTrip
import Pictogram.Proofs.Code.Acceptance

/-!
# Programs that need no constants

A program whose code needs no constants has a class that can be written, unless
the name of the class is too long.  How many bytes the class has depends on its
code by the length of the code alone.
-/

namespace Pictogram
namespace Compile

open Pictogram.Class (Pool Constant)

/-- A text that a class can hold. -/
def IsShort (content : String) : Prop := (Class.EncodedText.encode content).length ≤ 65535

instance (content : String) : Decidable (IsShort content) := Nat.decLe _ _

/-- Every constant can be written. -/
def Writable (pool : Pool) : Prop := ∀ constant ∈ pool.constants, ¬constant.Oversized

/-- Additions to a pool that can be written leave one that can. -/
def KeepsWritable {α : Type} (build : Pool.Build α) : Prop :=
  ∀ pool value after, Writable pool → build pool = .ok value after → Writable after

namespace KeepsWritable

variable {α β : Type}

theorem pure (value : α) : KeepsWritable (Pure.pure value : Pool.Build α) := by
  intro pool result after writable built
  exact (Stateful.pure_eq_ok.mp built).2 ▸ writable

/-- Parts that keep a pool writable keep it so one after the other. -/
theorem bind
    {first : Pool.Build α}
    {next : α → Pool.Build β}
    (firstKeeps : KeepsWritable first)
    (nextKeeps : ∀ value, KeepsWritable (next value)) :
    KeepsWritable (first >>= next) := by
  intro pool result after writable built
  obtain ⟨value, middle, builtFirst, builtNext⟩ := Stateful.bind_eq_ok.mp built
  exact nextKeeps value middle result after (firstKeeps pool value middle writable builtFirst)
    builtNext

/-- A constant that is not oversized keeps a pool writable. -/
theorem add {constant : Constant} (short : ¬constant.Oversized) :
    KeepsWritable (Pool.add constant) := by
  intro pool index after writable built
  rcases Pool.add_cases constant pool with ⟨_, -, found⟩ | ⟨-, -, grown⟩ | ⟨-, -, refused⟩
  · cases found.symm.trans built
    exact writable
  · cases grown.symm.trans built
    rw [Writable, Pool.constants_append, List.forall_mem_append, List.forall_mem_singleton]
    exact ⟨writable, short⟩
  · cases refused.symm.trans built

/-- A short text keeps a pool writable. -/
theorem text {content : String} (short : IsShort content) : KeepsWritable (Pool.text content) :=
  add (Nat.not_lt.mpr short)

theorem classRef {name : String} (short : IsShort name) :
    KeepsWritable (Pool.classRef name) :=
  .bind (text short) fun _ => add id

theorem methodRef
    {owner name descriptor : String}
    (shortOwner : IsShort owner)
    (shortName : IsShort name)
    (shortDescriptor : IsShort descriptor) :
    KeepsWritable (Pool.methodRef owner name descriptor) :=
  .bind (classRef shortOwner) fun _ =>
    .bind (.bind (text shortName) fun _ => .bind (text shortDescriptor) fun _ => add id) fun _ =>
      add id

end KeepsWritable

/-- The opening keeps the pool writable, if the name of the class is short. -/
theorem keepsWritable_opening {options : Options} (short : IsShort options.internalName) :
    KeepsWritable (opening options) := by
  have object : IsShort objectClass := by decide
  have name : IsShort "<init>" := by decide
  have descriptor : IsShort "()V" := by decide
  have code : IsShort "Code" := by decide
  refine .bind (.classRef short) fun _ => .bind (.classRef object) fun _ =>
    .bind (.text code) fun _ => .bind ?_ fun _ => .pure _
  exact .bind (.methodRef object name descriptor) fun _ => .bind (.text name) fun _ =>
    .bind (.text descriptor) fun _ => .pure _

/-- The closing keeps the pool writable, if the name of the source is short. -/
theorem keepsWritable_closing
    {options : Options}
    (short : IsShort options.statedSource)
    (draft : Draft) :
    KeepsWritable (closing options draft) := by
  have name : IsShort "main" := by decide
  have descriptor : IsShort "([Ljava/lang/String;)V" := by decide
  have sourceName : IsShort "SourceFile" := by decide
  exact .bind (.text name) fun _ => .bind (.text descriptor) fun _ =>
    .bind (.text sourceName) fun _ => .bind (.text short) fun _ => .pure _

/-- What is added at the end of a class does not depend on its code. -/
theorem exists_closing
    (options : Options)
    {pool : Pool}
    (room : pool.size + 4 ≤ poolRoom) :
    ∃ name descriptor attributes last, ∀ draft : Draft,
      closing options draft pool = .ok (⟨0x0009, name, descriptor,
        [.code draft.opening.codeName draft.maxStack draft.maxLocals draft.code []]⟩,
        attributes) last := by
  obtain ⟨name, first, named, firstSize⟩ := Adds.text "main" pool (by omega)
  obtain ⟨descriptor, second, described, secondSize⟩ :=
    Adds.text "([Ljava/lang/String;)V" first (by omega)
  obtain ⟨sourceName, third, sourceNamed, thirdSize⟩ := Adds.text "SourceFile" second (by omega)
  obtain ⟨sourceFile, last, stated, -⟩ := Adds.text options.statedSource third (by omega)
  refine ⟨name, descriptor, [.sourceFile sourceName sourceFile], last, fun draft => ?_⟩
  exact Stateful.bind_eq_ok.mpr ⟨name, first, named, Stateful.bind_eq_ok.mpr
    ⟨descriptor, second, described, Stateful.bind_eq_ok.mpr
      ⟨sourceName, third, sourceNamed, Stateful.bind_eq_ok.mpr
        ⟨sourceFile, last, stated, rfl⟩⟩⟩⟩

/-- The code of a program, which needs no constants. -/
def HasPlainCode (program : Program) (code : List UInt8) : Prop :=
  ∀ pool, ∃ body, mainBody program (.empty pool) = .ok () body ∧
    body.pool = pool ∧ body.code.bytes.toList = code

/-- A program whose code needs no constants has a class that can be written.  The class is as much
longer than its code as every other such class. -/
theorem exists_classBytes
    (options : Options)
    (shortName : IsShort options.internalName)
    (shortSource : IsShort options.statedSource) :
    ∃ size, ∀ program code, HasPlainCode program code → code.length ≤ Code.sizeLimit →
      ∃ bytes, classBytes options program = .ok bytes ∧ bytes.length = size + code.length := by
  obtain ⟨begun, pool, opened, poolSize⟩ := adds_opening options .empty (by decide)
  have emptySize : Pool.empty.size = 0 := rfl
  have room : pool.size + 4 ≤ poolRoom := by
    unfold poolRoom
    omega
  obtain ⟨name, descriptor, attributes, last, closed⟩ := exists_closing options room
  have emptyWritable : Writable Pool.empty := by simp [Writable, Pool.empty, Pool.constants]
  have poolWritable := keepsWritable_opening shortName .empty begun pool emptyWritable opened
  have lastWritable : Writable last :=
    keepsWritable_closing shortSource ⟨begun, pool, 0, 0, []⟩ pool _ last poolWritable (closed _)
  have notOversized : ¬((∃ constant ∈ last.constants, constant.Oversized) ∧
      ∃ error, last.bytes = .error error) := by
    rintro ⟨⟨constant, present, long⟩, -⟩
    exact lastWritable constant present long
  obtain ⟨-, parts, written, -⟩ := last.bytes_cases.resolve_right notOversized
  refine ⟨(Bytes.word last.count ++ parts.flatten).length + begun.constructor.bytes.length +
    (Class.attributeBytes attributes).length + 48, fun program code isPlain fits => ?_⟩
  obtain ⟨body, ran, rfl, rfl⟩ := isPlain pool
  have finished : body.code.finish = .ok body.code.bytes.toList := if_pos (by simpa using fits)
  have drafted : draft options program = .ok ⟨begun, body.pool, body.code.maxStack,
      body.slots.maxLocals, body.code.bytes.toList⟩ := by
    simp only [draft, opened, ran, finished]
    rfl
  have built := closed ⟨begun, body.pool, body.code.maxStack, body.slots.maxLocals,
    body.code.bytes.toList⟩
  simp only [classBytes, classFile, drafted, Draft.classFile, built, Class.File.bytes, written,
    bind, Except.bind, pure, Except.pure, Except.ok.injEq, exists_eq_left']
  simp only [Class.File.magic, Bytes.word, Class.countBytes, Class.Method.bytes,
    Class.attributeBytes, Class.Attribute.bytes, List.flatMap_cons, List.flatMap_nil,
    List.length_append, List.length_cons, List.length_nil, Bytes.length_unsigned]
  omega

end Compile
end Pictogram
