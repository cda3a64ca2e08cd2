import Pictogram.Compile.Slots
import Pictogram.Proofs.Stateful
import Mathlib.Data.List.Basic
import Mathlib.Logic.Function.Basic
import Mathlib.Order.Nat

/-!
# The scope of names

While code is generated, names come into scope and, counters of loops, go out of
it again.  A slot is never given to a second name.  `View` says which slot each
name stands for at any time of a run, whether or not the name is in scope where
the run has got to: a loop may come back to a place before a declaration that it
has run already.
-/

namespace Pictogram
namespace Compile
namespace Slots

/-- Each local has a slot of its own, among those handed out. -/
structure Valid (slots : Slots) : Prop where
  /-- Slot 0 is taken by the argument. -/
  slot_pos : ∀ found ∈ slots.locals, 0 < found.slot.toNat
  /-- Slots have been handed out before. -/
  slot_lt : ∀ found ∈ slots.locals, found.slot.toNat < slots.next
  /-- No two locals share a slot. -/
  distinct : ∀ first ∈ slots.locals, ∀ second ∈ slots.locals,
    first.slot = second.slot → first = second
  /-- Slot 0 has been handed out. -/
  next_pos : 0 < slots.next
  /-- No more slots than a method may have. -/
  next_le : slots.next ≤ limit

theorem valid_empty : empty.Valid where
  slot_pos := by simp [empty]
  slot_lt := by simp [empty]
  distinct := by simp [empty]
  next_pos := by decide
  next_le := by decide

/-- What a name is resolved to is a local of that name. -/
theorem mem_of_resolve?
    {slots : Slots}
    {name : String}
    {found : Local}
    (resolved : slots.resolve? name = some found) :
    found ∈ slots.locals ∧ found.name = name := by
  unfold resolve? at resolved
  exact ⟨List.mem_of_find?_eq_some resolved, by simpa using List.find?_some resolved⟩

/-- A hidden slot is the next one, and brings no name into scope. -/
theorem hidden_ok
    {slots after : Slots}
    {slot : UInt8}
    (given : hidden slots = .ok slot after) :
    slot.toNat = slots.next ∧ slots.next < limit ∧
      after = { slots with next := slots.next + 1 } := by
  unfold hidden at given
  split at given
  · rename_i room
    obtain ⟨rfl, rfl⟩ := EStateM.Result.ok.inj given
    have small : slots.next < UInt8.size := Nat.lt_trans room (by decide)
    exact ⟨UInt8.toNat_ofNat_of_lt' small, room, rfl⟩
  · cases given

/-- A new name is given the next slot. -/
theorem declare_ok
    {slots after : Slots}
    {id : Identifier}
    {type : StaticType}
    {slot : UInt8}
    (given : declare id type slots = .ok slot after) :
    slots.resolve? id.name = none ∧ slot.toNat = slots.next ∧ slots.next < limit ∧
      after = ⟨⟨id.name, slot, type⟩ :: slots.locals, slots.next + 1⟩ := by
  unfold declare at given
  obtain ⟨current, same, got, given⟩ := Stateful.bind_eq_ok.mp given
  obtain ⟨rfl, rfl⟩ := Stateful.get_eq_ok.mp got
  split at given
  · obtain ⟨_, _, thrown, -⟩ := Stateful.bind_eq_ok.mp given
    exact absurd thrown Stateful.throw_ne_ok
  · rename_i free
    obtain ⟨number, allotted, found, given⟩ := Stateful.bind_eq_ok.mp given
    obtain ⟨place, room, rfl⟩ := hidden_ok found
    obtain ⟨_, changed, modified, given⟩ := Stateful.bind_eq_ok.mp given
    obtain ⟨rfl, rfl⟩ := Stateful.pure_eq_ok.mp given
    obtain ⟨-, rfl⟩ := EStateM.Result.ok.inj modified
    exact ⟨by simpa using free, place, room, rfl⟩

/-- A declaration brings its own name into scope, in front of the others. -/
theorem resolve?_declared
    (slots : Slots)
    (found : Local)
    (next : Nat)
    (name : String) :
    (⟨found :: slots.locals, next⟩ : Slots).resolve? name =
      if found.name = name then some found else slots.resolve? name := by
  simp only [resolve?, List.find?_cons]
  split <;> simp_all

/-- Removing a name takes that name out of scope, and no other. -/
theorem resolve?_remove (slots : Slots) (removed name : String) :
    (slots.remove removed).resolve? name =
      if name = removed then none else slots.resolve? name := by
  simp only [resolve?, remove, List.find?_filter]
  split
  · rename_i same
    subst same
    simp
  · rename_i different
    congr 1
    funext found
    by_cases equal : found.name = name <;> simp [equal, different]

/-- A scope stays valid when a name is given the next slot. -/
theorem Valid.declared
    {slots : Slots}
    (valid : slots.Valid)
    {name : String}
    {slot : UInt8}
    {type : StaticType}
    (place : slot.toNat = slots.next)
    (room : slots.next < limit) :
    (⟨⟨name, slot, type⟩ :: slots.locals, slots.next + 1⟩ : Slots).Valid where
  slot_pos := by
    have := valid.next_pos
    intro found present
    rcases List.mem_cons.mp present with rfl | earlier
    · simp only
      omega
    · exact valid.slot_pos found earlier
  slot_lt := by
    intro found present
    rcases List.mem_cons.mp present with rfl | earlier
    · simp only
      omega
    · have := valid.slot_lt found earlier
      simp only
      omega
  distinct := by
    -- An earlier slot is below the next one, so it is not the one given now.
    have below : ∀ found ∈ slots.locals, found.slot ≠ slot := by
      intro found present same
      have := valid.slot_lt found present
      rw [same] at this
      omega
    intro first firstPresent second secondPresent same
    rcases List.mem_cons.mp firstPresent with rfl | firstEarlier <;>
      rcases List.mem_cons.mp secondPresent with rfl | secondEarlier
    · rfl
    · exact absurd same.symm (below second secondEarlier)
    · exact absurd same (below first firstEarlier)
    · exact valid.distinct first firstEarlier second secondEarlier same
  next_pos := Nat.succ_pos _
  next_le := room

/-- A scope stays valid when a slot is handed out without a name. -/
theorem Valid.hidden
    {slots : Slots}
    (valid : slots.Valid)
    (room : slots.next < limit) :
    ({ slots with next := slots.next + 1 } : Slots).Valid where
  slot_pos := valid.slot_pos
  slot_lt := fun found present => Nat.lt_succ_of_lt (valid.slot_lt found present)
  distinct := valid.distinct
  next_pos := Nat.succ_pos _
  next_le := room

/-- A scope stays valid when a name is removed. -/
theorem Valid.remove
    {slots : Slots}
    (valid : slots.Valid)
    (name : String) :
    (slots.remove name).Valid := by
  have earlier : ∀ found ∈ (slots.remove name).locals, found ∈ slots.locals :=
    fun found present => List.mem_of_mem_filter present
  exact {
    slot_pos := fun found present => valid.slot_pos found (earlier found present)
    slot_lt := fun found present => valid.slot_lt found (earlier found present)
    distinct := fun first firstPresent second secondPresent =>
      valid.distinct first (earlier first firstPresent) second (earlier second secondPresent)
    next_pos := valid.next_pos
    next_le := valid.next_le }

/-! ## How a scope grows -/

/-- The scope after a statement, seen from the one before. -/
structure Grows (before after : Slots) : Prop where
  /-- Names stay in scope. -/
  kept : ∀ {name found}, before.resolve? name = some found → after.resolve? name = some found
  /-- New names have new slots. -/
  fresh : ∀ {name found}, before.resolve? name = none → after.resolve? name = some found →
    before.next ≤ found.slot.toNat
  /-- Slots are never given back. -/
  next_le : before.next ≤ after.next
  /-- Slots stay distinct. -/
  valid : before.Valid → after.Valid

theorem Grows.refl (slots : Slots) : slots.Grows slots where
  kept := id
  fresh := by
    intro name found absent present
    rw [absent] at present
    cases present
  next_le := le_refl _
  valid := id

/-- A scope that grows twice has grown. -/
theorem Grows.trans
    {first second third : Slots}
    (earlier : first.Grows second)
    (later : second.Grows third) :
    first.Grows third where
  kept := fun resolved => later.kept (earlier.kept resolved)
  fresh := by
    intro name found absent present
    cases between : second.resolve? name with
    | none => exact earlier.next_le.trans (later.fresh between present)
    | some known =>
        have same := later.kept between
        rw [present] at same
        obtain rfl := Option.some.inj same
        exact earlier.fresh absent between
  next_le := earlier.next_le.trans later.next_le
  valid := fun valid => later.valid (earlier.valid valid)

/-- A hidden slot lets the scope grow. -/
theorem grows_hidden
    {slots after : Slots}
    {slot : UInt8}
    (given : hidden slots = .ok slot after) :
    slots.Grows after := by
  obtain ⟨place, room, rfl⟩ := hidden_ok given
  exact {
    kept := id
    fresh := by
      intro name found absent present
      change slots.resolve? name = some found at present
      rw [absent] at present
      cases present
    next_le := Nat.le_succ _
    valid := fun valid => valid.hidden room }

/-- A declaration lets the scope grow. -/
theorem grows_declare
    {slots after : Slots}
    {id : Identifier}
    {type : StaticType}
    {slot : UInt8}
    (given : declare id type slots = .ok slot after) :
    slots.Grows after := by
  obtain ⟨free, place, room, rfl⟩ := declare_ok given
  exact {
    kept := by
      intro name found resolved
      have different : id.name ≠ name := by
        rintro rfl
        rw [free] at resolved
        cases resolved
      simp only [resolve?_declared, if_neg different, resolved]
    fresh := by
      intro name found absent present
      rw [resolve?_declared] at present
      split at present
      · obtain rfl := Option.some.inj present
        exact place.ge
      · rw [absent] at present
        cases present
    next_le := Nat.le_succ _
    valid := fun valid => valid.declared place room }

/-- A name that was not in scope before a part may be taken out of scope after
it. -/
theorem Grows.remove
    {before after : Slots}
    (grows : before.Grows after)
    {name : String}
    (free : before.resolve? name = none) :
    before.Grows (after.remove name) where
  kept := by
    intro other found resolved
    have different : other ≠ name := by
      rintro rfl
      rw [free] at resolved
      cases resolved
    rw [resolve?_remove, if_neg different]
    exact grows.kept resolved
  fresh := by
    intro other found absent present
    rw [resolve?_remove] at present
    split at present
    · cases present
    · exact grows.fresh absent present
  next_le := grows.next_le
  valid := fun valid => (grows.valid valid).remove name

/-! ## Which slot a name stands for in a run -/

/-- The slots that names stand for, seen from a place in the program. -/
structure View (slots : Slots) (view : String → Option Local) : Prop where
  /-- Names in scope stand for the slots of the scope. -/
  known : ∀ {name found}, slots.resolve? name = some found → view name = some found
  /-- No two names share a slot. -/
  apart : ∀ {first second firstFound secondFound}, view first = some firstFound →
    view second = some secondFound → firstFound.slot = secondFound.slot → first = second
  /-- Names not in scope yet stand for slots that are handed out later. -/
  later : ∀ {name found}, view name = some found → slots.resolve? name = none →
    slots.next ≤ found.slot.toNat

/-- The scope at the end of a program is a view of itself. -/
theorem Valid.view {slots : Slots} (valid : slots.Valid) : slots.View slots.resolve? where
  known := id
  apart := by
    intro first second firstFound secondFound firstResolved secondResolved same
    obtain ⟨firstPresent, rfl⟩ := mem_of_resolve? firstResolved
    obtain ⟨secondPresent, rfl⟩ := mem_of_resolve? secondResolved
    rw [valid.distinct _ firstPresent _ secondPresent same]
  later := by
    intro name found resolved absent
    rw [absent] at resolved
    cases resolved

/-- What a view shows for a name in scope is what the scope has for it. -/
theorem View.eq_of_resolve?
    {slots : Slots}
    {view : String → Option Local}
    {name : String}
    {found known : Local}
    (seen : slots.View view)
    (viewed : view name = some found)
    (inScope : slots.resolve? name = some known) :
    known = found :=
  Option.some.inj ((seen.known inScope).symm.trans viewed)

/-- A view from after a part is a view from before it. -/
theorem View.before
    {before after : Slots}
    {view : String → Option Local}
    (seen : after.View view)
    (grows : before.Grows after) :
    before.View view where
  known := fun resolved => seen.known (grows.kept resolved)
  apart := seen.apart
  later := by
    intro name found viewed absent
    cases atEnd : after.resolve? name with
    | none => exact grows.next_le.trans (seen.later viewed atEnd)
    | some known =>
        obtain rfl := seen.eq_of_resolve? viewed atEnd
        exact grows.fresh absent atEnd

/-- No name stands for a hidden slot. -/
theorem View.slot_ne_hidden
    {before held : Slots}
    {view : String → Option Local}
    {hiddenSlot : UInt8}
    {name : String}
    {found : Local}
    (seen : held.View view)
    (valid : before.Valid)
    (given : hidden before = .ok hiddenSlot held)
    (viewed : view name = some found) :
    found.slot ≠ hiddenSlot := by
  rintro rfl
  obtain ⟨slotIs, -, rfl⟩ := hidden_ok given
  cases inScope : before.resolve? name with
  | none =>
      have later : before.next + 1 ≤ found.slot.toNat := seen.later viewed inScope
      omega
  | some known =>
      obtain rfl := seen.eq_of_resolve? viewed inScope
      have earlier := valid.slot_lt known (mem_of_resolve? inScope).1
      omega

/-! ## Inside a loop -/

section Counter

variable {slots : Slots} {view : String → Option Local} {name : String} {found : Local}

/-- No other name, in scope or not, stands for the slot of a name that is taken out of scope. -/
theorem View.slot_ne_removed
    {other : String}
    {otherFound : Local}
    (seen : (slots.remove name).View view)
    (valid : slots.Valid)
    (resolved : slots.resolve? name = some found)
    (different : other ≠ name)
    (viewed : view other = some otherFound) :
    otherFound.slot ≠ found.slot := by
  intro same
  obtain ⟨foundPresent, foundName⟩ := mem_of_resolve? resolved
  cases inScope : (slots.remove name).resolve? other with
  | none =>
      have later : slots.next ≤ otherFound.slot.toNat := seen.later viewed inScope
      have earlier := valid.slot_lt found foundPresent
      rw [same] at later
      omega
  | some known =>
      obtain rfl := seen.eq_of_resolve? viewed inScope
      rw [resolve?_remove, if_neg different] at inScope
      obtain ⟨knownPresent, knownName⟩ := mem_of_resolve? inScope
      obtain rfl := valid.distinct _ knownPresent _ foundPresent same
      exact different (knownName.symm.trans foundName)

/-- What a view shows in which the counter of a loop has been put. -/
theorem update_eq_some_iff {other : String} {otherFound : Local} :
    Function.update view name (some found) other = some otherFound ↔
      (other = name ∧ found = otherFound) ∨ (other ≠ name ∧ view other = some otherFound) := by
  by_cases same : other = name
  · subst same
    simp
  · simp [same]

/-- The view from inside a loop, where its counter stands for a slot of its
own. -/
theorem View.counter
    (seen : (slots.remove name).View view)
    (valid : slots.Valid)
    (resolved : slots.resolve? name = some found) :
    slots.View (Function.update view name (some found)) where
  known := by
    intro other otherFound otherResolved
    rw [update_eq_some_iff]
    by_cases same : other = name
    · subst same
      exact .inl ⟨rfl, Option.some.inj (resolved.symm.trans otherResolved)⟩
    · refine .inr ⟨same, seen.known ?_⟩
      rw [resolve?_remove, if_neg same, otherResolved]
  apart := by
    intro first second firstFound secondFound firstViewed secondViewed same
    rcases update_eq_some_iff.mp firstViewed with ⟨rfl, rfl⟩ | ⟨firstOther, firstSeen⟩ <;>
      rcases update_eq_some_iff.mp secondViewed with ⟨rfl, rfl⟩ | ⟨secondOther, secondSeen⟩
    · rfl
    · exact absurd same.symm (seen.slot_ne_removed valid resolved secondOther secondSeen)
    · exact absurd same (seen.slot_ne_removed valid resolved firstOther firstSeen)
    · exact seen.apart firstSeen secondSeen same
  later := by
    intro other otherFound viewed absent
    rcases update_eq_some_iff.mp viewed with ⟨rfl, -⟩ | ⟨different, otherSeen⟩
    · cases resolved.symm.trans absent
    · refine seen.later otherSeen ?_
      rw [resolve?_remove, if_neg different, absent]

end Counter

end Slots
end Compile
end Pictogram
