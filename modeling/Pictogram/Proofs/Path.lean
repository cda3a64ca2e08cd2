import Pictogram.Path
import Pictogram.Proofs.Text.Split
import Mathlib.Data.List.Basic

/-!
# Paths put together from names

A name leads from a directory to what is in it.  Names that are pushed onto a path one
after another become its segments, and a name that is pushed onto any path becomes its
last segment, behind segments that do not depend on the name.
-/

namespace Pictogram
namespace Path

/-- A segment that leads to what a directory holds under a name. -/
structure IsName (segment : List Char) : Prop where
  /-- There is a name. -/
  nonempty : segment ≠ []
  /-- It is one segment only. -/
  noSlash : '/' ∉ segment
  /-- It does not stand for the directory itself. -/
  notHere : segment ≠ ['.']
  /-- It does not stand for the directory above. -/
  notAbove : segment ≠ ['.', '.']

/-- The relative path of names. -/
def ofNames (names : List (List Char)) : Path := ⟨String.ofList (Text.join '/' names)⟩

@[simp] theorem toList_ofNames (names : List (List Char)) :
    (ofNames names).text.toList = Text.join '/' names := by
  simp [ofNames]

/-- No name begins with a separator. -/
theorem IsName.head?_ne
    {name : List Char}
    (isName : IsName name)
    (more : List Char) :
    (name ++ more).head? ≠ some '/' := by
  intro begins
  obtain ⟨first, rest, rfl⟩ := List.exists_cons_of_ne_nil isName.nonempty
  obtain rfl : first = '/' := by simpa using begins
  exact isName.noSlash List.mem_cons_self

theorem IsName.isAbsolute_eq
    {name : List Char}
    (isName : IsName name) :
    isAbsolute ⟨String.ofList name⟩ = false := by
  simpa [isAbsolute] using isName.head?_ne []

/-- A path of names is relative. -/
theorem isAbsolute_ofNames
    {names : List (List Char)}
    (areNames : ∀ name ∈ names, IsName name) :
    (ofNames names).isAbsolute = false := by
  have begins : (Text.join '/' names).head? ≠ some '/' := by
    match names with
    | [] => simp [Text.join]
    | [name] => simpa [Text.join] using (areNames name (by simp)).head?_ne []
    | name :: next :: rest => exact (areNames name (by simp)).head?_ne _
  simpa [isAbsolute] using begins

/-! ## Pushing names -/

/-- What ends in a name goes on behind a slash. -/
theorem push_ofNames
    {names : List (List Char)}
    {name : List Char}
    (areNames : ∀ other ∈ names, IsName other)
    (isName : IsName name) :
    (ofNames names).push ⟨String.ofList name⟩ = ofNames (names ++ [name]) := by
  simp only [push, isName.isAbsolute_eq, Bool.false_eq_true, if_false, toList_ofNames]
  by_cases none : names = []
  · subst none
    simp [Text.join, ofNames]
  · obtain ⟨front, last, rfl⟩ := names.eq_nil_or_concat'.resolve_left none
    have isLast : IsName last := areNames last (by simp)
    have whole : Text.join '/' (front ++ [last]) = Text.join '/' (front ++ [[]]) ++ last := by
      simpa using Text.join_concat_append '/' front [] last
    have ends : (Text.join '/' (front ++ [last])).getLast? ≠ some '/' := by
      rw [whole, List.getLast?_append_of_ne_nil _ isLast.nonempty]
      exact fun isSlash => isLast.noSlash (List.mem_of_getLast? isSlash)
    have filled : (Text.join '/' (front ++ [last])).isEmpty = false := by
      rw [whole]
      simp [isLast.nonempty]
    have slash : "/" = String.ofList ['/'] := rfl
    simp only [filled, ends, decide_false, Bool.or_false, Bool.false_eq_true, if_false]
    rw [ofNames, ofNames, Text.join_concat none, slash, ← String.ofList_append,
      ← String.ofList_append, List.append_assoc, List.singleton_append]

/-- Names that are pushed one by one stand behind those of the path. -/
theorem foldl_push_ofNames
    {before names : List (List Char)}
    (beforeNames : ∀ name ∈ before, IsName name)
    (areNames : ∀ name ∈ names, IsName name) :
    names.foldl (fun path name => path.push ⟨String.ofList name⟩) (ofNames before) =
      ofNames (before ++ names) := by
  induction names generalizing before with
  | nil => simp
  | cons name rest inductionHypothesis =>
      obtain ⟨isName, others⟩ := List.forall_mem_cons.mp areNames
      have longer : ∀ other ∈ before ++ [name], IsName other := by
        rw [List.forall_mem_append]
        exact ⟨beforeNames, by simpa using isName⟩
      rw [List.foldl_cons, push_ofNames beforeNames isName, inductionHypothesis longer others]
      simp

/-! ## Segments -/

/-- The segment that a piece of a path makes, which knows its place among the pieces. -/
def mark (absolute : Bool) (entry : List Char × Nat) : Segment :=
  ⟨entry.1, !entry.1.isEmpty && (entry.1 ≠ ['.'] || (entry.2 = 0 && !absolute))⟩

/-- The segments of a path are the pieces between its separators, without the one it may begin with.
-/
theorem segments_eq (path : Path) :
    path.segments = (Text.split '/' (if path.isAbsolute then path.text.toList.drop 1
      else path.text.toList)).zipIdx.map (mark path.isAbsolute) := rfl

/-- A name counts, wherever it stands. -/
theorem IsName.mark_eq
    {name : List Char}
    (isName : IsName name)
    (absolute : Bool)
    (index : Nat) :
    mark absolute (name, index) = ⟨name, true⟩ := by
  simp [mark, isName.nonempty, isName.notHere]

/-- A path of names has the names as its segments, and all of them count. -/
theorem segments_ofNames
    {names : List (List Char)}
    (areNames : ∀ name ∈ names, IsName name)
    (nonempty : names ≠ []) :
    (ofNames names).segments = names.map (⟨·, true⟩) := by
  have cut : Text.split '/' (Text.join '/' names) = names :=
    Text.split_join (fun name present => (areNames name present).noSlash) nonempty
  have relative := isAbsolute_ofNames areNames
  calc (ofNames names).segments
      = names.zipIdx.map (mark false) := by
        rw [segments_eq, relative, if_neg Bool.false_ne_true, toList_ofNames, cut]
    _ = names.zipIdx.map ((⟨·, true⟩) ∘ Prod.fst) :=
        List.map_congr_left fun entry present =>
          (areNames entry.1 (List.fst_mem_of_mem_zipIdx present)).mark_eq false entry.2
    _ = names.map (⟨·, true⟩) := by rw [← List.map_map, List.zipIdx_map_fst]

theorem dropWhile_counting (names : List (List Char)) :
    (names.map (Segment.mk · true)).dropWhile (fun segment => !segment.counts) =
      names.map (Segment.mk · true) := by
  cases names <;> rfl

/-- Another file name takes the place of the last name. -/
theorem withFileName_ofNames
    {names : List (List Char)}
    {last name : List Char}
    (areNames : ∀ other ∈ names ++ [last], IsName other)
    (isName : IsName name) :
    (ofNames (names ++ [last])).withFileName (String.ofList name) = ofNames (names ++ [name]) := by
  obtain ⟨frontNames, lastName⟩ := List.forall_mem_append.mp areNames
  have isLast : IsName last := by simpa using lastName
  have counted : (ofNames (names ++ [last])).countedFromEnd =
      ⟨last, true⟩ :: (names.map (⟨·, true⟩)).reverse := by
    simp [countedFromEnd, segments_ofNames areNames]
  have kept : ((names.map (Segment.mk · true)).reverse.dropWhile fun segment =>
      !segment.counts).reverse.map Segment.name = names := by
    rw [← List.map_reverse, dropWhile_counting]
    simp [Function.comp_def]
  have above : (ofNames (names ++ [last])).parent? = some (ofNames names) := by
    simp only [parent?, counted, kept, isAbsolute_ofNames areNames, Bool.false_eq_true, if_false]
    rfl
  have found : (ofNames (names ++ [last])).fileName? = some (String.ofList last) := by
    simp [fileName?, counted, isLast.notHere, isLast.notAbove]
  simp only [withFileName, found, above, Option.getD_some]
  exact push_ofNames frontNames isName

/-! ## A name behind any path -/

/-- What comes in front of a name that is pushed onto a path: nothing, or a text that goes on
with a slash. -/
theorem text_push
    {name : List Char}
    (isName : IsName name)
    (base : Path) :
    (base.push ⟨String.ofList name⟩).text.toList =
      if base.text.toList.isEmpty then name
      else if base.text.toList.getLast? = some '/' then
        base.text.toList.dropLast ++ '/' :: name
      else base.text.toList ++ '/' :: name := by
  simp only [push, isName.isAbsolute_eq, Bool.false_eq_true, if_false]
  by_cases isEmpty : base.text.toList.isEmpty
  · have nothing : base.text.toList = [] := List.isEmpty_iff.mp isEmpty
    simp [nothing]
  · by_cases ends : base.text.toList.getLast? = some '/'
    · obtain ⟨before, whole⟩ := List.getLast?_eq_some_iff.mp ends
      simp [whole]
    · simp [isEmpty, ends]

/-- A name that is pushed leaves a path as absolute as it was. -/
theorem isAbsolute_push
    {name : List Char}
    (isName : IsName name)
    (base : Path) :
    (base.push ⟨String.ofList name⟩).isAbsolute = base.isAbsolute := by
  rw [isAbsolute, isAbsolute, text_push isName]
  split
  · rename_i isEmpty
    rw [List.isEmpty_iff.mp isEmpty]
    simpa using isName.head?_ne []
  · split
    · rename_i ends
      obtain ⟨before, whole⟩ := List.getLast?_eq_some_iff.mp ends
      rw [whole, List.dropLast_concat]
      cases before <;> rfl
    · rename_i filled ends
      obtain ⟨first, rest, whole⟩ := List.exists_cons_of_ne_nil (mt List.isEmpty_iff.mpr filled)
      rw [whole]
      rfl

/-- Behind a slash a new piece begins. -/
theorem exists_pieces (absolute : Bool) (start : List Char) :
    ∃ before : List (List Char), ∀ name : List Char, '/' ∉ name →
      Text.split '/' (if absolute then (start ++ '/' :: name).drop 1 else start ++ '/' :: name) =
        before ++ [name] := by
  cases absolute with
  | false =>
      refine ⟨Text.split '/' start, fun name noSlash => ?_⟩
      rw [if_neg Bool.false_ne_true, Text.split_append, Text.split_of_free noSlash]
  | true =>
      cases start with
      | nil => exact ⟨[], fun name noSlash => Text.split_of_free noSlash⟩
      | cons first rest =>
          refine ⟨Text.split '/' rest, fun name noSlash => ?_⟩
          rw [if_pos rfl, List.cons_append, List.drop_one, List.tail_cons, Text.split_append,
            Text.split_of_free noSlash]

/-- A name that is pushed onto a path is its last segment, and those in front of it do not depend
on the name. -/
theorem exists_segments_push (base : Path) :
    ∃ front : List Segment, ∀ name : List Char, IsName name →
      (base.push ⟨String.ofList name⟩).segments = front ++ [⟨name, true⟩] := by
  have pieces : ∃ before : List (List Char), ∀ name : List Char, IsName name →
      Text.split '/' (if base.isAbsolute then
        (base.push ⟨String.ofList name⟩).text.toList.drop 1
        else (base.push ⟨String.ofList name⟩).text.toList) = before ++ [name] := by
    by_cases isEmpty : base.text.toList.isEmpty
    · have relative : base.isAbsolute = false := by
        simp [isAbsolute, List.isEmpty_iff.mp isEmpty]
      refine ⟨[], fun name isName => ?_⟩
      rw [relative, if_neg Bool.false_ne_true, text_push isName, if_pos isEmpty,
        Text.split_of_free isName.noSlash, List.nil_append]
    · obtain ⟨start, text⟩ : ∃ start : List Char, ∀ name, IsName name →
          (base.push ⟨String.ofList name⟩).text.toList = start ++ '/' :: name := by
        by_cases ends : base.text.toList.getLast? = some '/'
        · exact ⟨_, fun name isName => by rw [text_push isName, if_neg isEmpty, if_pos ends]⟩
        · exact ⟨_, fun name isName => by rw [text_push isName, if_neg isEmpty, if_neg ends]⟩
      obtain ⟨before, cut⟩ := exists_pieces base.isAbsolute start
      exact ⟨before, fun name isName => by rw [text name isName, cut name isName.noSlash]⟩
  obtain ⟨before, cut⟩ := pieces
  refine ⟨before.zipIdx.map (mark base.isAbsolute), fun name isName => ?_⟩
  rw [segments_eq, isAbsolute_push isName, cut name isName, List.zipIdx_append, List.map_append]
  exact congrArg _ (congrArg ([·]) (isName.mark_eq _ _))

/-- Paths below one path differ by their names. -/
theorem push_inj
    {first second : List Char}
    (isFirst : IsName first)
    (isSecond : IsName second)
    (base : Path) :
    base.push ⟨String.ofList first⟩ = base.push ⟨String.ofList second⟩ ↔ first = second := by
  obtain ⟨front, segments⟩ := exists_segments_push base
  refine ⟨fun same => ?_, fun same => by rw [same]⟩
  have lists := congrArg Path.segments same
  rw [segments first isFirst, segments second isSecond] at lists
  simpa using lists

/-! ## Names along a path -/

/-- The name of a segment that leads on. -/
def Segment.name? (segment : Segment) : Option String :=
  if segment.counts && segment.name ≠ ['.'] then some (String.ofList segment.name) else none

/-- The names that a path leads along. -/
def names (path : Path) : List String := path.segments.filterMap Segment.name?

/-- The path ends in a segment that does not count. -/
def EndsOpen (path : Path) : Prop :=
  path.segments.getLast?.map (·.counts) = some false

/-- Paths below one path have one parent. -/
theorem exists_parent?_push (root : Path) :
    ∃ parent, ∀ name, IsName name → (root.push ⟨String.ofList name⟩).parent? = some parent := by
  obtain ⟨front, segments⟩ := exists_segments_push root
  let body := Text.join '/'
    ((front.reverse.dropWhile fun segment => !segment.counts).reverse.map Segment.name)
  refine ⟨⟨String.ofList (if root.isAbsolute then '/' :: body else body)⟩, fun name isName => ?_⟩
  simp [parent?, countedFromEnd, segments name isName, isAbsolute_push isName, body]

/-- A path that ends in a name has a last segment that counts. -/
theorem not_endsOpen_push
    (root : Path)
    {name : List Char}
    (isName : IsName name) :
    ¬(root.push ⟨String.ofList name⟩).EndsOpen := by
  obtain ⟨front, segments⟩ := exists_segments_push root
  simp [EndsOpen, segments name isName]

/-- A name that is pushed is the last name of the path, behind the same ones whatever it is. -/
theorem exists_names_push (root : Path) :
    ∃ front, ∀ name, IsName name →
      (root.push ⟨String.ofList name⟩).names = front ++ [String.ofList name] := by
  obtain ⟨front, segments⟩ := exists_segments_push root
  refine ⟨front.filterMap Segment.name?, fun name isName => ?_⟩
  simp [names, segments name isName, Segment.name?, isName.notHere]

end Path
end Pictogram
