import Pictogram.Compile.Options
import Pictogram.Proofs.Path

/-!
# Where a class is written

A class is looked for by its internal name: a directory for each package, and in the last
of them a file that is named after the class.  The path that a class is written to is put
together from the parts of its name, and leads to that file.
-/

namespace Pictogram
namespace Compile
namespace Options

/-- A part of a class name that is not empty and has no slash is a name of a file. -/
theorem isName_of_part
    {options : Options}
    {part : List Char}
    (present : part ∈ options.parts)
    (nonempty : part ≠ [])
    (noSlash : '/' ∉ part) :
    Path.IsName part := by
  have noPoint : '.' ∉ part := Text.not_mem_of_mem_split present
  refine ⟨nonempty, noSlash, ?_, ?_⟩
  all_goals
    rintro rfl
    exact noPoint List.mem_cons_self

/-- What a class is called with the ending of its file is a name. -/
theorem isName_classFile
    {name : List Char}
    (noSlash : '/' ∉ name) :
    Path.IsName (name ++ ".class".toList) where
  nonempty := by simp
  noSlash := by simp [noSlash]
  notHere := by
    intro same
    simpa using congrArg List.length same
  notAbove := by
    intro same
    simpa using congrArg List.length same

/-- The path of a class is made of the names of its packages and of its file. -/
theorem classFilePath_eq_ofNames
    {options : Options}
    {packages : List (List Char)}
    {simple : List Char}
    (areParts : options.parts = packages ++ [simple])
    (named : ∀ part ∈ options.parts, part ≠ [] ∧ '/' ∉ part) :
    options.classFilePath = Path.ofNames (packages ++ [simple ++ ".class".toList]) := by
  have areNames : ∀ part ∈ packages ++ [simple], Path.IsName part := by
    intro part present
    rw [← areParts] at present
    exact isName_of_part present (named part present).1 (named part present).2
  have isSimple : Path.IsName simple := areNames simple (by simp)
  have fileName : options.classFileName = String.ofList (simple ++ ".class".toList) := by
    simp [classFileName, simpleName, areParts]
  have pushed :
      (packages ++ [simple]).foldl (fun path part => path.push ⟨String.ofList part⟩) ⟨""⟩ =
        Path.ofNames (packages ++ [simple]) :=
    Path.foldl_push_ofNames (List.forall_mem_nil _) areNames
  rw [classFilePath, areParts]
  simp only [pushed, fileName]
  exact Path.withFileName_ofNames areNames (isName_classFile isSimple.noSlash)

/-- The internal name is made of the parts of the class name. -/
theorem toList_internalName (options : Options) :
    options.internalName.toList = Text.join '/' options.parts := by
  have replaced (parts : List (List Char)) (free : ∀ part ∈ parts, '.' ∉ part) :
      (Text.join '.' parts).map (fun character => if character = '.' then '/' else character) =
        Text.join '/' parts := by
    have same {part : List Char} (noPoint : '.' ∉ part) :
        part.map (fun character => if character = '.' then '/' else character) = part := by
      rw [List.map_congr_left (g := id), List.map_id]
      intro character present
      refine if_neg ?_
      rintro rfl
      exact noPoint present
    fun_induction Text.join '.' parts with
    | case1 => rfl
    | case2 part => exact same (free part (by simp))
    | case3 part next rest inductionHypothesis =>
        obtain ⟨noPoint, others⟩ := List.forall_mem_cons.mp free
        simp [Text.join, same noPoint, inductionHypothesis others]
  rw [internalName, String.toList_ofList, ← Text.join_split '.' options.className.toList]
  exact replaced options.parts fun part => Text.not_mem_of_mem_split

/-- A class whose packages and whose own name can be names of directories and files is written
to the path that is its internal name with an ending: relative, with one directory for each
package, and then a file that is named after the class. -/
theorem classFilePath_eq_internalName
    {options : Options}
    (named : ∀ part ∈ options.parts, part ≠ [] ∧ '/' ∉ part) :
    options.classFilePath = ⟨options.internalName ++ ".class"⟩ ∧
    options.classFilePath.isAbsolute = false ∧
    options.classFilePath.segments =
      (options.parts.dropLast ++ [(options.simpleName ++ ".class").toList]).map (⟨·, true⟩) := by
  obtain ⟨packages, simple, areParts⟩ :=
    options.parts.eq_nil_or_concat'.resolve_left (Text.split_ne_nil _ _)
  have path := classFilePath_eq_ofNames areParts named
  have areNames : ∀ part ∈ packages ++ [simple ++ ".class".toList], Path.IsName part := by
    rw [List.forall_mem_append]
    refine ⟨fun part present => ?_, ?_⟩
    · have isPart : part ∈ options.parts := by simp [areParts, present]
      exact isName_of_part isPart (named part isPart).1 (named part isPart).2
    · have isPart : simple ∈ options.parts := by simp [areParts]
      simpa using isName_classFile (named simple isPart).2
  refine ⟨?_, ?_, ?_⟩
  · rw [path, Path.ofNames, Text.join_concat_append, ← areParts, String.ofList_append,
      ← toList_internalName, String.ofList_toList, String.ofList_toList]
  · rw [path, Path.isAbsolute_ofNames areNames]
  · rw [path, Path.segments_ofNames areNames (by simp)]
    simp [simpleName, areParts]

/-- A class in two packages. -/
theorem classFilePath_eq_internalName_packaged :
    let options := ofClassName "com.example.Main"
    options.parts = ["com".toList, "example".toList, "Main".toList] ∧
    options.classFilePath = ⟨"com/example/Main.class"⟩ := by
  have parts : (ofClassName "com.example.Main").parts =
      ["com".toList, "example".toList, "Main".toList] := by decide
  have named : ∀ part ∈ (ofClassName "com.example.Main").parts, part ≠ [] ∧ '/' ∉ part := by
    rw [parts]
    decide
  exact ⟨parts, (classFilePath_eq_internalName named).1.trans (by decide)⟩

end Options
end Compile
end Pictogram
