import Pictogram.Proofs.Code.Slots
import Mathlib.Data.List.Induction
import Mathlib.Data.List.Nodup

/-!
# Slots handed out by a run of requests

Names are declared and given up, slots without a name are taken, and some of it is
refused.  Whatever the order, the slots that are handed out are the numbers from 1 on, each
of them once, and a name stands for the variable of its latest declaration.
-/

namespace Pictogram
namespace Compile
namespace Slots

/-- What can be asked of the slots of a method. -/
inductive Request where
  /-- A slot for a name. -/
  | declare (id : Identifier) (type : StaticType)
  /-- A slot that no name stands for. -/
  | hidden
  /-- The variable of a name. -/
  | resolve (name : String)
  /-- To give a name up. -/
  | remove (name : String)

/-- What is answered to a request. -/
inductive Answer where
  /-- A slot that is handed out. -/
  | slot (number : UInt8)
  /-- The variable of a name, if it has one. -/
  | entry (found : Option Local)
  /-- Nothing is asked for. -/
  | done

/-- The slot that is handed out by an answer. -/
def Answer.slot? : Answer → Option UInt8
  | .slot number => some number
  | .entry _ | .done => none

/-- What a request does. -/
def Request.run : Request → EStateM Error Slots Answer
  | .declare id type => Answer.slot <$> Slots.declare id type
  | .hidden => Answer.slot <$> Slots.hidden
  | .resolve name => fun slots => .ok (.entry (slots.resolve? name)) slots
  | .remove name => fun slots => .ok .done (slots.remove name)

/-- The slots after a request, whether or not it was refused. -/
def after (slots : Slots) (request : Request) : Slots :=
  match request.run slots with
  | .ok _ after | .error _ after => after

/-- The slot that a request is given. -/
def given? (slots : Slots) (request : Request) : Option UInt8 :=
  match request.run slots with
  | .ok answer _ => answer.slot?
  | .error _ _ => none

/-- The slots that requests are given, in order. -/
def handedOut : Slots → List Request → List UInt8
  | _, [] => []
  | slots, request :: rest => (slots.given? request).toList ++ handedOut (slots.after request) rest

/-! ## What one request does -/

/-- A hidden slot is the next one, if there is one left. -/
theorem hidden_eq (slots : Slots) :
    hidden slots =
      if slots.next < limit then
        .ok (UInt8.ofNat slots.next) { slots with next := slots.next + 1 }
      else .error (.tooManyLocals limit) slots := rfl

/-- A declaration is given the next slot, unless the name is taken or no slot is left. -/
theorem declare_eq (slots : Slots) (id : Identifier) (type : StaticType) :
    declare id type slots =
      if (slots.resolve? id.name).isSome then .error (.redeclared id.name id.position) slots
      else if slots.next < limit then
        .ok (UInt8.ofNat slots.next)
          ⟨⟨id.name, UInt8.ofNat slots.next, type⟩ :: slots.locals, slots.next + 1⟩
      else .error (.tooManyLocals limit) slots := by
  have asked : declare id type slots =
      (if (slots.resolve? id.name).isSome then throw (.redeclared id.name id.position)
      else do
        let slot ← hidden
        modify fun slots => { slots with locals := ⟨id.name, slot, type⟩ :: slots.locals }
        return slot : EStateM Error Slots UInt8) slots := rfl
  rw [asked]
  by_cases bound : (slots.resolve? id.name).isSome
  · rw [if_pos bound, if_pos bound]
    rfl
  rw [if_neg bound, if_neg bound]
  by_cases room : slots.next < limit
  · have given : hidden slots =
        .ok (UInt8.ofNat slots.next) { slots with next := slots.next + 1 } := by
      rw [hidden_eq, if_pos room]
    rw [if_pos room]
    exact Stateful.bind_eq_ok.mpr ⟨_, _, given, rfl⟩
  · have refused : hidden slots = .error (.tooManyLocals limit) slots := by
      rw [hidden_eq, if_neg room]
    rw [if_neg room]
    exact Stateful.bind_eq_error.mpr (.inl refused)

/-- A hidden slot is refused only when no slot is left. -/
theorem hidden_refused_iff {slots : Slots} :
    (∃ error left, hidden slots = .error error left) ↔ ¬slots.next < limit := by
  rw [hidden_eq]
  by_cases room : slots.next < limit <;> simp [room]

/-- A declaration is refused only when the name is taken or no slot is left. -/
theorem declare_refused_iff
    {slots : Slots}
    {id : Identifier}
    {type : StaticType} :
    (∃ error left, declare id type slots = .error error left) ↔
      (slots.resolve? id.name).isSome ∨ ¬slots.next < limit := by
  rw [declare_eq]
  by_cases bound : (slots.resolve? id.name).isSome <;>
    by_cases room : slots.next < limit <;> simp [bound, room]

/-- A refused hidden slot leaves the slots as they are. -/
theorem eq_of_hidden_refused
    {slots left : Slots}
    {error : Error}
    (refused : hidden slots = .error error left) :
    left = slots := by
  rw [hidden_eq] at refused
  split at refused
  · cases refused
  · cases refused
    rfl

/-- A refused declaration leaves the slots as they are. -/
theorem eq_of_declare_refused
    {slots left : Slots}
    {id : Identifier}
    {type : StaticType}
    {error : Error}
    (refused : declare id type slots = .error error left) :
    left = slots := by
  rw [declare_eq] at refused
  split at refused
  · cases refused
    rfl
  · split at refused
    · cases refused
    · cases refused
      rfl

/-- What a request can be given, and what can become of the slots. -/
inductive Step (slots : Slots) : Request → Option UInt8 → Slots → Prop
  | declared {id : Identifier} {type : StaticType} :
      slots.resolve? id.name = none →
      slots.next < limit →
      Step slots (.declare id type) (some (UInt8.ofNat slots.next))
        ⟨⟨id.name, UInt8.ofNat slots.next, type⟩ :: slots.locals, slots.next + 1⟩
  | hidden :
      slots.next < limit →
      Step slots .hidden (some (UInt8.ofNat slots.next)) { slots with next := slots.next + 1 }
  | removed {name : String} :
      Step slots (.remove name) none (slots.remove name)
  | unchanged {request : Request} :
      (∀ name, request ≠ .remove name) →
      Step slots request none slots

/-- Every request does one of the things that a step can do. -/
theorem step (slots : Slots) (request : Request) :
    Step slots request (slots.given? request) (slots.after request) := by
  cases request with
  | declare id type =>
      have asked : (Request.declare id type).run slots =
          EStateM.map Answer.slot (declare id type) slots := rfl
      rw [given?, after, asked, EStateM.map, declare_eq]
      by_cases bound : (slots.resolve? id.name).isSome
      · rw [if_pos bound]
        exact .unchanged nofun
      · rw [if_neg bound]
        by_cases room : slots.next < limit
        · rw [if_pos room]
          exact .declared (by simpa using bound) room
        · rw [if_neg room]
          exact .unchanged nofun
  | hidden =>
      have asked : Request.hidden.run slots = EStateM.map Answer.slot hidden slots := rfl
      rw [given?, after, asked, EStateM.map, hidden_eq]
      by_cases room : slots.next < limit
      · rw [if_pos room]
        exact .hidden room
      · rw [if_neg room]
        exact .unchanged nofun
  | resolve name => exact .unchanged nofun
  | remove name => exact .removed

/-- Only a name without a variable is given a slot. -/
theorem resolve?_of_given?
    {slots : Slots}
    {id : Identifier}
    {type : StaticType}
    {slot : UInt8}
    (given : slots.given? (.declare id type) = some slot) :
    slots.resolve? id.name = none := by
  have step := slots.step (.declare id type)
  rw [given] at step
  generalize slots.after (.declare id type) = later at step
  cases step with
  | declared free _ => exact free

/-! ## Which slots are handed out -/

theorem toNat_ofNat_next
    {slots : Slots}
    (room : slots.next < limit) :
    (UInt8.ofNat slots.next).toNat = slots.next :=
  UInt8.toNat_ofNat_of_lt' (Nat.lt_trans room (by decide))

/-- A step does not go past the last slot. -/
theorem Step.next_le
    {slots later : Slots}
    {request : Request}
    {given : Option UInt8}
    (step : Step slots request given later)
    (fits : slots.next ≤ limit) :
    later.next ≤ limit := by
  cases step with
  | declared _ room => exact room
  | hidden room => exact room
  | removed => exact fits
  | unchanged => exact fits

/-- A request that is given a slot is given the first one that is not taken. -/
theorem Step.range_next
    {slots later : Slots}
    {request : Request}
    {given : Option UInt8}
    (step : Step slots request given later) :
    List.range slots.next ++ given.toList.map UInt8.toNat = List.range later.next := by
  cases step with
  | declared _ room => simp [toNat_ofNat_next room, List.range_succ]
  | hidden room => simp [toNat_ofNat_next room, List.range_succ]
  | removed => simp [remove]
  | unchanged => simp

/-- However many requests are made, the next slot is not past the last. -/
theorem next_foldl_le
    {slots : Slots}
    (fits : slots.next ≤ limit)
    (requests : List Request) :
    (requests.foldl after slots).next ≤ limit := by
  induction requests generalizing slots with
  | nil => exact fits
  | cons request rest inductionHypothesis =>
      exact inductionHypothesis ((slots.step request).next_le fits)

/-- The slots that are taken and those that are handed out are numbered without a gap. -/
theorem range_foldl (slots : Slots) (requests : List Request) :
    List.range slots.next ++ (handedOut slots requests).map UInt8.toNat =
      List.range (requests.foldl after slots).next := by
  induction requests generalizing slots with
  | nil => simp [handedOut]
  | cons request rest inductionHypothesis =>
      rw [handedOut, List.map_append, ← List.append_assoc, (slots.step request).range_next,
        inductionHypothesis, List.foldl_cons]

/-- No slot is handed out twice. -/
theorem nodup_handedOut (requests : List Request) : (handedOut empty requests).Nodup := by
  have numbered := range_foldl empty requests
  have distinct : ((handedOut empty requests).map UInt8.toNat).Nodup :=
    (List.nodup_cons.mp (numbered ▸ List.nodup_range)).2
  exact List.Nodup.of_map UInt8.toNat distinct

/-- What is handed out to requests in a row is handed out to the first and then to the others. -/
theorem handedOut_append (slots : Slots) (first second : List Request) :
    handedOut slots (first ++ second) =
      handedOut slots first ++ handedOut (first.foldl after slots) second := by
  induction first generalizing slots with
  | nil => rfl
  | cons request rest inductionHypothesis =>
      simp [handedOut, inductionHypothesis]

/-! ## Which variable a name stands for -/

/-- No name is declared twice at a time. -/
theorem Step.nodup_names
    {slots later : Slots}
    {request : Request}
    {given : Option UInt8}
    (step : Step slots request given later)
    (distinct : (slots.locals.map Local.name).Nodup) :
    (later.locals.map Local.name).Nodup := by
  cases step with
  | declared free _ =>
      refine List.nodup_cons.mpr ⟨?_, distinct⟩
      intro present
      obtain ⟨found, isLocal, named⟩ := List.mem_map.mp present
      have different := List.find?_eq_none.mp free found isLocal
      simp [named] at different
  | hidden => exact distinct
  | removed => exact distinct.sublist (List.filter_sublist.map Local.name)
  | unchanged => exact distinct

/-- No name is in scope twice. -/
theorem nodup_names_foldl (requests : List Request) :
    ((requests.foldl after empty).locals.map Local.name).Nodup := by
  induction requests using List.reverseRecOn with
  | nil => exact List.nodup_nil
  | append_singleton requests request inductionHypothesis =>
      rw [List.foldl_concat]
      exact (step _ request).nodup_names inductionHypothesis

/-- A declaration among requests that was given its slot: the variable that was declared, and the
requests that came later. -/
def Declares (requests : List Request) (found : Local) (later : List Request) : Prop :=
  ∃ earlier id, requests = earlier ++ .declare id found.type :: later ∧ id.name = found.name ∧
    (earlier.foldl after empty).given? (.declare id found.type) = some found.slot

/-- A declaration among requests is the last request, or is among those before it. -/
theorem declares_concat
    {requests : List Request}
    {request : Request}
    {found : Local}
    {later : List Request} :
    Declares (requests ++ [request]) found later ↔
      (∃ front, later = front ++ [request] ∧ Declares requests found front) ∨
      (later = [] ∧ ∃ id, request = .declare id found.type ∧ id.name = found.name ∧
        (requests.foldl after empty).given? request = some found.slot) := by
  constructor
  · rintro ⟨earlier, id, split, named, given⟩
    rcases later.eq_nil_or_concat' with rfl | ⟨front, last, rfl⟩
    · obtain ⟨rfl, rfl⟩ := List.append_singleton_inj.mp split
      exact .inr ⟨rfl, id, rfl, named, given⟩
    · rw [← List.cons_append, ← List.append_assoc] at split
      obtain ⟨rfl, rfl⟩ := List.append_singleton_inj.mp split
      exact .inl ⟨front, rfl, earlier, id, rfl, named, given⟩
  · rintro (⟨front, rfl, earlier, id, rfl, named, given⟩ | ⟨rfl, id, rfl, named, given⟩)
    · exact ⟨earlier, id, by simp, named, given⟩
    · exact ⟨requests, id, rfl, named, given⟩

/-- A name stands for the variable that it stood for before, unless the request gives it up, or
for the one that the request declares. -/
theorem Step.resolve?_eq_some_iff
    {slots later : Slots}
    {request : Request}
    {given : Option UInt8}
    (step : Step slots request given later)
    {name : String}
    {found : Local} :
    later.resolve? name = some found ↔
      (slots.resolve? name = some found ∧ request ≠ .remove name) ∨
      (∃ id, request = .declare id found.type ∧ id.name = found.name ∧ found.name = name ∧
        given = some found.slot) := by
  cases step with
  | @declared id type free room =>
      rw [resolve?_declared]
      by_cases same : id.name = name
      · subst same
        rw [if_pos rfl, free]
        constructor
        · intro isFound
          obtain rfl := Option.some.inj isFound
          exact .inr ⟨id, rfl, rfl, rfl, rfl⟩
        · rintro (⟨absent, -⟩ | ⟨other, isRequest, named, -, slot⟩)
          · cases absent
          · obtain ⟨name, number, kind⟩ := found
            cases isRequest
            cases slot
            exact congrArg some (congrArg (Local.mk · _ _) named)
      · rw [if_neg same]
        constructor
        · exact fun resolved => .inl ⟨resolved, nofun⟩
        · rintro (⟨resolved, -⟩ | ⟨other, isRequest, named, isName, -⟩)
          · exact resolved
          · cases isRequest
            exact absurd (named.trans isName) same
  | hidden room => simp [resolve?]
  | @removed gone =>
      rw [resolve?_remove]
      by_cases same : name = gone
      · simp [same]
      · simp [same, Ne.symm same]
  | unchanged kept => simp [kept]

/-- A name stands for a variable that was declared and has not been given up since. -/
theorem resolve?_foldl_eq_some_iff
    {requests : List Request}
    {name : String}
    {found : Local} :
    (requests.foldl after empty).resolve? name = some found ↔
      found.name = name ∧ ∃ later, Declares requests found later ∧ .remove name ∉ later := by
  induction requests using List.reverseRecOn with
  | nil =>
      simp [empty, resolve?, Declares]
  | append_singleton requests request inductionHypothesis =>
      rw [List.foldl_concat, (step _ request).resolve?_eq_some_iff, inductionHypothesis]
      constructor
      · rintro (⟨⟨named, front, declares, kept⟩, notGone⟩ | ⟨id, isRequest, named, isName, given⟩)
        · refine ⟨named, front ++ [request], declares_concat.mpr (.inl ⟨front, rfl, declares⟩), ?_⟩
          simp [kept, Ne.symm notGone]
        · exact ⟨isName, [], declares_concat.mpr (.inr ⟨rfl, id, isRequest, named, given⟩),
            List.not_mem_nil⟩
      · rintro ⟨named, later, declares, kept⟩
        rcases declares_concat.mp declares with
          ⟨front, rfl, earlier⟩ | ⟨rfl, id, isRequest, isName, given⟩
        · rw [List.mem_append, List.mem_singleton, not_or] at kept
          exact .inl ⟨⟨named, front, earlier, kept.1⟩, Ne.symm kept.2⟩
        · exact .inr ⟨id, isRequest, isName, named, given⟩

/-- Between two declarations of a name that are both given a slot, the name is given up. -/
theorem Declares.remove_mem
    {requests later rest : List Request}
    {found other : Local}
    (first : Declares requests found later)
    (second : Declares requests other rest)
    (sameName : other.name = found.name)
    (behind : rest.length < later.length) :
    .remove found.name ∈ later := by
  obtain ⟨earlier, id, split, named, given⟩ := first
  obtain ⟨before, again, splitAgain, namedAgain, givenAgain⟩ := second
  obtain ⟨middle, rfl, rfl⟩ : ∃ middle, before = earlier ++ .declare id found.type :: middle ∧
      later = middle ++ .declare again other.type :: rest := by
    rcases List.append_eq_append_iff.mp (split.symm.trans splitAgain) with
      ⟨between, isBefore, isLater⟩ | ⟨between, -, isRest⟩
    · cases between with
      | nil =>
          have sameLength := congrArg List.length isLater
          simp only [List.nil_append, List.length_cons] at sameLength
          omega
      | cons first middle =>
          obtain ⟨rfl, isMiddle⟩ := List.cons.inj isLater
          exact ⟨middle, isBefore, isMiddle⟩
    · have sameLength := congrArg List.length isRest
      simp only [List.length_append, List.length_cons] at sameLength
      omega
  by_contra kept
  have notGone : Request.remove found.name ∉ middle := fun gone =>
    kept (List.mem_append_left _ gone)
  have bound := resolve?_foldl_eq_some_iff.mpr
    ⟨rfl, middle, ⟨earlier, id, rfl, named, given⟩, notGone⟩
  have free := resolve?_of_given? givenAgain
  rw [namedAgain, sameName, bound] at free
  cases free

/-- After any sequence of requests, refused ones among them: the slots that were handed out are
numbered from 1 on without a gap, in order, and with slot 0 they are as many as the method
states, at most 255; none of them is handed out again.  A name has one variable at most, the one
of the latest declaration that was given a slot, if the name was not given up since.  A slot is
refused for a name that has a variable, and when 254 slots have been handed out, and then nothing
changes. -/
theorem slots_allotted (requests : List Request) :
    let slots := requests.foldl after empty
    let given := handedOut empty requests
    0 :: given.map UInt8.toNat = List.range slots.maxLocals.toNat ∧
    slots.maxLocals.toNat ≤ 255 ∧
    (∀ later, ∀ slot ∈ given, slot ∉ handedOut slots later) ∧
    (slots.locals.map Local.name).Nodup ∧
    (∀ name found, slots.resolve? name = some found ↔
      found.name = name ∧ ∃ later, Declares requests found later ∧ .remove name ∉ later ∧
        ∀ other rest, other.name = name → Declares requests other rest →
          later.length ≤ rest.length) ∧
    (∀ id type, (∃ error left, declare id type slots = .error error left) ↔
      (slots.resolve? id.name).isSome ∨ given.length = 254) ∧
    ((∃ error left, hidden slots = .error error left) ↔ given.length = 254) ∧
    (∀ id type error left, declare id type slots = .error error left → left = slots) ∧
    ∀ error left, hidden slots = .error error left → left = slots := by
  intro slots given
  have fits : slots.next ≤ limit := next_foldl_le (by decide) requests
  have stated : slots.maxLocals.toNat = slots.next :=
    UInt16.toNat_ofNat_of_lt' (Nat.lt_of_le_of_lt fits (by decide))
  have numbered : 0 :: given.map UInt8.toNat = List.range slots.next := range_foldl empty requests
  have full : given.length = 254 ↔ ¬slots.next < limit := by
    have count : given.length + 1 = slots.next := by simpa using congrArg List.length numbered
    simp only [limit] at fits ⊢
    omega
  refine ⟨stated ▸ numbered, stated ▸ fits, ?again, nodup_names_foldl requests, ?latest,
    fun _ _ => declare_refused_iff.trans (or_congr_right full.symm),
    hidden_refused_iff.trans full.symm, fun _ _ _ _ => eq_of_declare_refused,
    fun _ _ => eq_of_hidden_refused⟩
  case again =>
    intro later slot present presentAgain
    have distinct := nodup_handedOut (requests ++ later)
    rw [handedOut_append] at distinct
    exact List.disjoint_of_nodup_append distinct present presentAgain
  case latest =>
    intro name found
    rw [resolve?_foldl_eq_some_iff]
    refine and_congr_right ?_
    rintro rfl
    -- A later declaration of the same name was given a slot only if the name was given up first.
    refine exists_congr fun later => and_congr_right fun declares => ?_
    refine (and_iff_left_of_imp fun kept other rest sameName again => ?_).symm
    by_contra behind
    exact kept (declares.remove_mem again sameName (Nat.lt_of_not_le behind))

end Slots
end Compile
end Pictogram
