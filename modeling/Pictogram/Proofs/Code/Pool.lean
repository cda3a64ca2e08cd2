import Pictogram.Proofs.Machine.Execution
import Pictogram.Proofs.Stateful

/-!
# Constants keep their indices

A sound pool knows each constant by the index at which it stands.  Additions
keep a pool sound and move no constant, so an index once given means the same
in every later pool.
-/

namespace Pictogram
namespace Class

/-- The entries that a constant takes: a wide one leaves the second empty. -/
def Constant.entries (constant : Constant) : List (Option Constant) :=
  some constant :: if constant.isWide then [none] else []

namespace Pool

/-- Every constant stands where the pool says, and every index can be written. -/
structure Sound (pool : Pool) : Prop where
  /-- A known constant stands at its index. -/
  get?_of_index : ∀ {constant index},
    pool.indices[constant]? = some index → pool.get? index = some constant
  /-- The last index is within bounds. -/
  size_lt : pool.entries.size < indexBound

/-- Every constant of the first pool stands at the same index in the second. -/
def Extends (first second : Pool) : Prop :=
  ∀ index constant, first.get? index = some constant → second.get? index = some constant

theorem Extends.refl (pool : Pool) : pool.Extends pool := fun _ _ found => found

theorem Extends.trans
    {first second third : Pool}
    (earlier : first.Extends second)
    (later : second.Extends third) :
    first.Extends third :=
  fun index constant found => later index constant (earlier index constant found)

/-- The empty pool is sound. -/
theorem sound_empty : empty.Sound where
  get?_of_index := by
    intro constant index found
    simp [empty] at found
  size_lt := by decide

/-- A constant is found one entry before its index, and none at index 0. -/
theorem get?_eq (pool : Pool) (index : UInt16) :
    pool.get? index =
      if index.toNat = 0 then none else (pool.entries[index.toNat - 1]?).join := by
  unfold get?
  split <;> rename_i place
  · simp [place]
  · simp [place]

/-- An appended constant takes as many entries as it is wide. -/
theorem entries_append (pool : Pool) (constant : Constant) :
    ∃ more, (pool.append constant).entries = pool.entries ++ #[some constant] ++ more ∧
      1 + more.size = constant.width := by
  obtain ⟨entries, indices⟩ := pool
  simp only [append, Constant.width]
  split
  · exact ⟨#[none], by simp, rfl⟩
  · exact ⟨#[], by simp, rfl⟩

theorem toList_entries_append (pool : Pool) (constant : Constant) :
    (pool.append constant).entries.toList = pool.entries.toList ++ constant.entries := by
  obtain ⟨entries, indices⟩ := pool
  simp only [append, Constant.entries]
  split <;> simp

/-- Every constant is found where it was when one is appended. -/
theorem extends_append (pool : Pool) (constant : Constant) :
    pool.Extends (pool.append constant) := by
  intro index other found
  obtain ⟨more, entries, -⟩ := pool.entries_append constant
  rw [get?_eq] at found ⊢
  split at found
  · simp at found
  · rename_i positive
    rw [if_neg positive, entries]
    have inside : index.toNat - 1 < pool.entries.size := by
      by_contra outside
      rw [Array.getElem?_eq_none (by omega)] at found
      simp at found
    rw [Array.getElem?_append_left (by simp; omega), Array.getElem?_append_left inside]
    exact found

/-- An appended constant is found behind the last entry, if there is room. -/
theorem get?_append
    (pool : Pool)
    (constant : Constant)
    (room : pool.entries.size + 1 < 65536) :
    (pool.append constant).get? (UInt16.ofNat (pool.entries.size + 1)) = some constant := by
  obtain ⟨more, entries, -⟩ := pool.entries_append constant
  have place : (UInt16.ofNat (pool.entries.size + 1)).toNat = pool.entries.size + 1 :=
    UInt16.toNat_ofNat_of_lt' room
  rw [get?_eq, place, entries, if_neg (by omega), Nat.add_sub_cancel,
    Array.getElem?_append_left (by simp), Array.getElem?_append_right (by simp)]
  simp

/-- What an addition does to a sound pool, if it is not refused. -/
structure Added (before after : Pool) : Prop where
  /-- The pool stays sound. -/
  sound : after.Sound
  /-- No constant moves. -/
  kept : before.Extends after

theorem Added.trans
    {first second third : Pool}
    (earlier : Added first second)
    (later : Added second third) :
    Added first third :=
  ⟨later.sound, earlier.kept.trans later.kept⟩

/-- What an addition does: it finds the constant, adds it, or is refused. -/
theorem add_cases (constant : Constant) (pool : Pool) :
    (∃ index, pool.indices[constant]? = some index ∧ add constant pool = .ok index pool) ∨
    (pool.indices[constant]? = none ∧ pool.entries.size + 1 + constant.width ≤ indexBound ∧
      add constant pool = .ok (UInt16.ofNat (pool.entries.size + 1)) (pool.append constant)) ∨
    (pool.indices[constant]? = none ∧ indexBound < pool.entries.size + 1 + constant.width ∧
      add constant pool = .error .poolOverflow pool) := by
  unfold add
  cases known : pool.indices[constant]? with
  | some index => exact .inl ⟨index, rfl, rfl⟩
  | none =>
      dsimp only
      by_cases room : pool.entries.size + 1 + constant.width ≤ indexBound
      · rw [if_pos room]
        exact .inr (.inl ⟨rfl, room, rfl⟩)
      · rw [if_neg room]
        exact .inr (.inr ⟨rfl, Nat.lt_of_not_le room, rfl⟩)

/-- An addition gives the index at which the constant stands from then on. -/
theorem add_ok
    {pool after : Pool}
    {constant : Constant}
    {index : UInt16}
    (sound : pool.Sound)
    (added : add constant pool = .ok index after) :
    Added pool after ∧ after.get? index = some constant := by
  rcases add_cases constant pool with
    ⟨known, found, same⟩ | ⟨-, room, grown⟩ | ⟨-, -, refused⟩
  · cases same.symm.trans added
    exact ⟨⟨sound, .refl _⟩, sound.get?_of_index found⟩
  · cases grown.symm.trans added
    have small : pool.entries.size + 1 < 65536 := by
      have := sound.size_lt
      simp only [indexBound] at this
      omega
    refine ⟨⟨⟨?_, ?_⟩, extends_append pool constant⟩, get?_append pool constant small⟩
    · intro other place found
      have indices : (pool.append constant).indices =
          pool.indices.insert constant (UInt16.ofNat (pool.entries.size + 1)) := rfl
      rw [indices, Std.HashMap.getElem?_insert] at found
      split at found
      · rename_i same
        obtain rfl := eq_of_beq same
        obtain rfl := Option.some.inj found
        exact get?_append pool constant small
      · exact extends_append pool constant _ _ (sound.get?_of_index found)
    · obtain ⟨more, entries, width⟩ := pool.entries_append constant
      rw [entries]
      simp only [Array.size_append, List.size_toArray, List.length_cons, List.length_nil]
      omega
  · cases refused.symm.trans added

/-! ## What later pools still know -/

section Extends

variable {first second : Pool} (kept : first.Extends second)
include kept

/-- A text is still found when the pool is extended. -/
theorem Extends.text?
    {index : UInt16}
    {text : String}
    (found : first.text? index = some text) :
    second.text? index = some text := by
  unfold Pool.text? at found ⊢
  split at found
  · rename_i stands
    rw [kept _ _ stands]
    exact found
  · cases found

theorem Extends.className?
    {index : UInt16}
    {name : String}
    (found : first.className? index = some name) :
    second.className? index = some name := by
  unfold Pool.className? at found ⊢
  split at found
  · rename_i stands
    rw [kept _ _ stands]
    exact kept.text? found
  · cases found

/-- The parts of a member are still found when the pool is extended. -/
theorem Extends.member?
    {owner signature : UInt16}
    {member : Member}
    (found : first.member? owner signature = some member) :
    second.member? owner signature = some member := by
  unfold Pool.member? at found ⊢
  split at found
  · rename_i stands
    rw [kept _ _ stands]
    simp only [Option.bind_eq_bind, Option.bind_eq_some_iff] at found ⊢
    obtain ⟨ownerName, ownerFound, name, nameFound, descriptor, descriptorFound, whole⟩ := found
    exact ⟨ownerName, kept.className? ownerFound, name, kept.text? nameFound, descriptor,
      kept.text? descriptorFound, whole⟩
  · cases found

theorem Extends.field?
    {index : UInt16}
    {member : Member}
    (found : first.field? index = some member) :
    second.field? index = some member := by
  unfold Pool.field? at found ⊢
  split at found
  · rename_i stands
    rw [kept _ _ stands]
    exact kept.member? found
  · cases found

theorem Extends.method?
    {index : UInt16}
    {member : Member}
    (found : first.method? index = some member) :
    second.method? index = some member := by
  unfold Pool.method? at found ⊢
  split at found
  · rename_i stands
    rw [kept _ _ stands]
    exact kept.member? found
  · cases found

/-- A constant is still loaded as the same datum when the pool is extended. -/
theorem Extends.ofConstant?
    {index : UInt16}
    {datum : Machine.Datum}
    (found : Machine.Datum.ofConstant? first index = some datum) :
    Machine.Datum.ofConstant? second index = some datum := by
  unfold Machine.Datum.ofConstant? at found ⊢
  split at found
  · rename_i stands
    rw [kept _ _ stands]
    exact found
  · rename_i stands
    rw [kept _ _ stands]
    obtain ⟨text, textFound, whole⟩ := Option.map_eq_some_iff.mp found
    exact Option.map_eq_some_iff.mpr ⟨text, kept.text? textFound, whole⟩
  · cases found

end Extends

/-! ## What additions give -/

section Additions

variable {pool after : Pool} {index : UInt16} (sound : pool.Sound)
include sound

/-- An added text is found at its index. -/
theorem text_ok
    {text : String}
    (added : Pool.text text pool = .ok index after) :
    Added pool after ∧ after.text? index = some text := by
  obtain ⟨grown, stands⟩ := add_ok sound added
  exact ⟨grown, by simp [Pool.text?, stands]⟩

/-- An added integer is loaded from its index. -/
theorem integer_ok
    {value : Int32}
    (added : Pool.integer value pool = .ok index after) :
    Added pool after ∧ Machine.Datum.ofConstant? after index = some (.int value) := by
  obtain ⟨grown, stands⟩ := add_ok sound added
  exact ⟨grown, by simp [Machine.Datum.ofConstant?, stands]⟩

/-- A text, and a constant that refers to it. -/
theorem reference_ok
    {text : String}
    {reference : UInt16 → Constant}
    (added : (do
      let place ← Pool.text text
      add (reference place)) pool = .ok index after) :
    Added pool after ∧
      ∃ place, after.get? index = some (reference place) ∧ after.text? place = some text := by
  obtain ⟨place, middle, textAdded, added⟩ := Stateful.bind_eq_ok.mp added
  obtain ⟨textGrown, textStands⟩ := text_ok sound textAdded
  obtain ⟨grown, stands⟩ := add_ok textGrown.sound added
  exact ⟨textGrown.trans grown, place, stands, grown.kept.text? textStands⟩

/-- An added string is loaded from its index. -/
theorem stringRef_ok
    {text : String}
    (added : Pool.stringRef text pool = .ok index after) :
    Added pool after ∧ Machine.Datum.ofConstant? after index = some (.text text) := by
  obtain ⟨grown, place, stands, textStands⟩ := reference_ok sound added
  exact ⟨grown, by simp [Machine.Datum.ofConstant?, stands, textStands]⟩

/-- The name of an added class is found at its index. -/
theorem classRef_ok
    {name : String}
    (added : Pool.classRef name pool = .ok index after) :
    Added pool after ∧ after.className? index = some name := by
  obtain ⟨grown, place, stands, nameStands⟩ := reference_ok sound added
  exact ⟨grown, by simp [Pool.className?, stands, nameStands]⟩

/-- An added pair is found at its index, and its two texts at the indices in it. -/
theorem nameAndType_ok
    {name descriptor : String}
    (added : Pool.nameAndType name descriptor pool = .ok index after) :
    Added pool after ∧
      ∃ namePlace descriptorPlace,
        after.get? index = some (.nameAndType namePlace descriptorPlace) ∧
        after.text? namePlace = some name ∧ after.text? descriptorPlace = some descriptor := by
  obtain ⟨namePlace, named, nameAdded, added⟩ := Stateful.bind_eq_ok.mp added
  obtain ⟨descriptorPlace, described, descriptorAdded, added⟩ := Stateful.bind_eq_ok.mp added
  obtain ⟨nameGrown, nameStands⟩ := text_ok sound nameAdded
  obtain ⟨descriptorGrown, descriptorStands⟩ := text_ok nameGrown.sound descriptorAdded
  obtain ⟨grown, stands⟩ := add_ok descriptorGrown.sound added
  exact ⟨(nameGrown.trans descriptorGrown).trans grown, namePlace, descriptorPlace, stands,
    grown.kept.text? (descriptorGrown.kept.text? nameStands),
    grown.kept.text? descriptorStands⟩

/-- A class and a signature, from which a member is made. -/
theorem member_ok
    {owner name descriptor : String}
    {reference : UInt16 → UInt16 → Constant}
    (added : (do
      let ownerPlace ← Pool.classRef owner
      let signature ← Pool.nameAndType name descriptor
      add (reference ownerPlace signature)) pool = .ok index after) :
    Added pool after ∧
      ∃ ownerPlace signature, after.get? index = some (reference ownerPlace signature) ∧
        after.member? ownerPlace signature = some ⟨owner, name, descriptor⟩ := by
  obtain ⟨ownerPlace, owned, ownerAdded, added⟩ := Stateful.bind_eq_ok.mp added
  obtain ⟨signature, signed, signatureAdded, added⟩ := Stateful.bind_eq_ok.mp added
  obtain ⟨ownerGrown, ownerStands⟩ := classRef_ok sound ownerAdded
  obtain ⟨signatureGrown, namePlace, descriptorPlace, signatureStands, nameStands,
    descriptorStands⟩ := nameAndType_ok ownerGrown.sound signatureAdded
  obtain ⟨grown, stands⟩ := add_ok signatureGrown.sound added
  refine ⟨(ownerGrown.trans signatureGrown).trans grown, ownerPlace, signature, stands, ?_⟩
  apply grown.kept.member?
  simp [Pool.member?, signatureStands, nameStands, descriptorStands,
    signatureGrown.kept.className? ownerStands]

theorem fieldRef_ok
    {owner name descriptor : String}
    (added : Pool.fieldRef owner name descriptor pool = .ok index after) :
    Added pool after ∧ after.field? index = some ⟨owner, name, descriptor⟩ := by
  obtain ⟨grown, ownerPlace, signature, stands, member⟩ := member_ok sound added
  exact ⟨grown, by simp [Pool.field?, stands, member]⟩

/-- An added method is found at its index with its owner, name and descriptor. -/
theorem methodRef_ok
    {owner name descriptor : String}
    (added : Pool.methodRef owner name descriptor pool = .ok index after) :
    Added pool after ∧ after.method? index = some ⟨owner, name, descriptor⟩ := by
  obtain ⟨grown, ownerPlace, signature, stands, member⟩ := member_ok sound added
  exact ⟨grown, by simp [Pool.method?, stands, member]⟩

end Additions

end Pool
end Class
end Pictogram
