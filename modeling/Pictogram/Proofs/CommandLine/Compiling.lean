import Pictogram.Proofs.Class.Location
import Pictogram.Proofs.Code.Plain
import Pictogram.Proofs.Disk
import Pictogram.Proofs.Token.Sequence
import Pictogram.Proofs.World
import Mathlib.Tactic.Choose

/-!
# Compiling several files

Each of several files gets a class named after it, and all classes are written
to one directory.  Two files can give their classes one name, and then the class
of the later one is all that is left.  That is the only way for a class to get
lost.
-/

namespace Pictogram

/-! ## Names of classes -/

namespace Compile.Options

/-- A character does not become a mark that stands before the letters by being made upper case. -/
theorem toUpper_ne
    {c mark : Char}
    (apart : c ≠ mark)
    (before : mark.toNat < 'A'.toNat) :
    c.toUpper ≠ mark := by
  unfold Char.toUpper
  split
  · next isLower =>
      rintro rfl
      obtain ⟨low, high⟩ := isLower
      rw [UInt32.le_iff_toNat_le] at low high
      change 97 ≤ c.val.toNat at low
      change c.val.toNat ≤ 122 at high
      change (c.val + ('A'.val - 'a'.val)).toNat < 65 at before
      have shift : ('A'.val - 'a'.val).toNat = 4294967264 := by decide
      rw [UInt32.toNat_add] at before
      omega
  · exact apart

/-- No character of the name that a file gives its class divides names. -/
theorem not_mem_classNameOf
    (path : Path)
    {mark : Char}
    (isMark : mark = '.' ∨ mark = '/') :
    mark ∉ (classNameOf path).toList := by
  have before : mark.toNat < 'A'.toNat := by rcases isMark with rfl | rfl <;> decide
  have apart : mark ≠ '_' := by rcases isMark with rfl | rfl <;> decide
  have plain : ∀ c ∈ (path.stem?.getD "").toList.map
      (fun c => if c.isAlphanum then c else '_'), c ≠ mark := by
    simp only [List.forall_mem_map]
    intro c _
    split
    · next isPlain =>
        rintro rfl
        rcases isMark with rfl | rfl <;> revert isPlain <;> decide
    · exact apart.symm
  unfold classNameOf
  generalize (path.stem?.getD "").toList.map (fun c => if c.isAlphanum then c else '_') = letters
    at plain
  cases letters with
  | nil => rcases isMark with rfl | rfl <;> decide
  | cons first rest =>
      rw [List.forall_mem_cons] at plain
      have later : mark ∉ rest := fun present => plain.2 mark present rfl
      by_cases isDigit : first.isDigit
      · simp [isDigit, apart, plain.1.symm, later]
      · simp [isDigit, (toUpper_ne plain.1 before).symm, later]

/-- No class has an empty name. -/
theorem classNameOf_ne_empty (path : Path) : (classNameOf path).toList ≠ [] := by
  unfold classNameOf
  generalize (path.stem?.getD "").toList.map (fun c => if c.isAlphanum then c else '_') = letters
  cases letters with
  | nil => decide
  | cons first rest => by_cases isDigit : first.isDigit <;> simp [isDigit]

/-- The name of the file of a class that is named after a file. -/
def fileNameOf (path : Path) : List Char := (classNameOf path).toList ++ ".class".toList

/-- The file of a class is named by a single name. -/
theorem isName_fileNameOf (path : Path) : Path.IsName (fileNameOf path) :=
  isName_classFile (not_mem_classNameOf path (.inr rfl))

/-- Two classes are written to files of one name just when they have one name. -/
theorem fileNameOf_inj {first second : Path} :
    fileNameOf first = fileNameOf second ↔ classNameOf first = classNameOf second := by
  simp [fileNameOf, String.toList_inj]

/-- A class that is named after a file is in no package. -/
theorem classFilePath_ofClassName (path : Path) :
    (ofClassName (classNameOf path)).classFilePath = ⟨String.ofList (fileNameOf path)⟩ := by
  have noPoint : '.' ∉ (classNameOf path).toList := not_mem_classNameOf path (.inl rfl)
  have noSlash : '/' ∉ (classNameOf path).toList := not_mem_classNameOf path (.inr rfl)
  have areParts : (ofClassName (classNameOf path)).parts = [] ++ [(classNameOf path).toList] := by
    simp [parts, ofClassName, Text.split_of_free noPoint]
  have named : ∀ part ∈ (ofClassName (classNameOf path)).parts, part ≠ [] ∧ '/' ∉ part := by
    intro part present
    rw [areParts, List.nil_append, List.mem_singleton] at present
    rw [present]
    exact ⟨classNameOf_ne_empty path, noSlash⟩
  rw [classFilePath_eq_ofNames areParts named]
  rfl

end Compile.Options

namespace CommandLine

open Compile.Options (classNameOf fileNameOf ofClassName)
open World (Ends)

variable {before after disk : Disk} {root : Path}

/-! ## Steps of the command -/

/-- The file that the class named after a file is written to. -/
def target (root path : Path) : Path := root.push (ofClassName (classNameOf path)).classFilePath

theorem target_eq (root path : Path) :
    target root path = root.push ⟨String.ofList (fileNameOf path)⟩ := by
  rw [target, Compile.Options.classFilePath_ofClassName]

/-- Two classes are written to one file just when they have one name. -/
theorem target_inj {first second : Path} :
    target root first = target root second ↔ classNameOf first = classNameOf second := by
  rw [target_eq, target_eq, ← Compile.Options.fileNameOf_inj]
  exact Path.push_inj (Compile.Options.isName_fileNameOf first)
    (Compile.Options.isName_fileNameOf second) root

/-- The bytes of the class named after a file, if the file is a text that has a class. -/
def compiled? (disk : Disk) (path : Path) : Option (List UInt8) :=
  match disk.readText path with
  | .ok source => (Work.classBytes (ofClassName (classNameOf path)) source).result.toOption
  | .error _ => none

/-- A file that is read, parsed and built has the class that comes of it. -/
theorem compiled?_eq_some
    {path : Path}
    {source : String}
    {program : Program}
    {bytes : List UInt8}
    (read : disk.readText path = .ok source)
    (parsed : parseTokens (tokenize source) = .ok program)
    (built : Compile.classBytes (ofClassName (classNameOf path)) program = .ok bytes) :
    compiled? disk path = some bytes := by
  unfold Compile.classBytes Compile.classFile at built
  cases drafted : Compile.draft (ofClassName (classNameOf path)) program with
  | error error => simp [drafted, bind, Except.bind] at built
  | ok draft =>
      cases filed : draft.classFile (ofClassName (classNameOf path)) with
      | error error => simp [drafted, filed, bind, Except.bind] at built
      | ok file =>
          simp only [drafted, filed, bind, Except.bind] at built
          obtain ⟨told, written⟩ : ∃ told,
              Work.classBytes (ofClassName (classNameOf path)) source #[] = .ok bytes told := by
            simp only [Work.classBytes, Work.classFile, Work.program, Work.compiled, parsed,
              drafted, filed, built, bind_assoc, pure_bind]
            exact ⟨_, rfl⟩
          simp [compiled?, read, Work.result, written, Except.toOption]

/-- A file that is a text is read, and the disk stays as it is. -/
theorem ends_readSource {path : Path} {source : String}
    (found : disk.readText path = .ok source) :
    Ends (readSource path) disk source disk :=
  .bind (World.ends_readText found) (.pure source disk)

/-- A job gives what its source does, and the disk stays as it is. -/
theorem ends_compileJob (log : Log.Filter) (job : Job) (disk : Disk) :
    Ends (compileJob log job) disk (Work.classBytes job.options job.source).result disk := by
  unfold compileJob Work.result
  cases Work.classBytes job.options job.source #[] with
  | ok bytes events =>
      exact .bind (World.ends_recordAll log events disk) (.pure (Except.ok bytes) disk)
  | error failure events =>
      exact .bind (World.ends_recordAll log events disk) (.pure (Except.error failure) disk)

theorem ends_showListing
    (log : Log.Filter)
    (options : Compile.Options)
    (source : String)
    (disk : Disk) :
    Ends (showListing log options source) disk () disk := by
  unfold showListing
  split
  · exact .bind (World.ends_recordAll log _ disk) (.bind (World.ends_say _ disk)
      (.forM (fun line => World.ends_say line disk) _))
  · exact .bind (World.ends_recordAll log _ disk) (World.ends_complain _ disk)

/-- A class is written to the file that its options name. -/
theorem ends_writeClass
    {options : Compile.Options}
    {bytes : List UInt8}
    (written : before.put (root.push options.classFilePath) ⟨bytes.toArray⟩ = .ok after) :
    Ends (writeClass root options bytes) before (root.push options.classFilePath) after := by
  have write {disk : Disk}
      (done : disk.writeBytes (root.push options.classFilePath) ⟨bytes.toArray⟩ = .ok after) :=
    World.ends_writeBytes done
  unfold writeClass
  unfold Disk.put at written
  cases above : (root.push options.classFilePath).parent? with
  | none =>
      simp only [above, bind, Except.bind] at written
      simp only [above]
      exact .bind (write written) (.bind (.pure () after) (.pure _ after))
  | some parent =>
      simp only [above]
      cases made : before.makeDirectories parent with
      | error fault => simp [above, made, bind, Except.bind] at written
      | ok between =>
          simp only [above, made, bind, Except.bind] at written
          exact .bind (World.ends_makeDirectories made) (.bind (.pure () between)
            (.bind (write written) (.bind (.pure () after) (.pure _ after))))

/-- Finishing a job that has a class puts the class on the disk. -/
theorem ends_finishJob_ok
    (log : Log.Filter)
    (listing : Bool)
    {job : Job}
    {bytes : List UInt8}
    (written : before.put (root.push job.options.classFilePath) ⟨bytes.toArray⟩ = .ok after) :
    Ends (finishJob log root listing job (.ok bytes)) before true after := by
  unfold finishJob
  refine .bind (ends_writeClass written) (.bind (World.ends_say _ after) ?_)
  cases listing with
  | true => exact .bind (ends_showListing log job.options job.source after) (.pure true after)
  | false => exact .pure true after

/-- A job that has failed writes nothing. -/
theorem ends_finishJob_error
    (log : Log.Filter)
    (root : Path)
    (listing : Bool)
    (job : Job)
    (failure : Failure)
    (disk : Disk) :
    Ends (finishJob log root listing job (.error failure)) disk false disk :=
  .bind (World.ends_complain _ disk) (.pure false disk)

/-! ## The whole command -/

/-- The files of the classes that files have, in the order of the files. -/
def classes (disk : Disk) (files : List Path) : List (List Char × ByteArray) :=
  files.filterMap fun path =>
    (compiled? disk path).map fun bytes => (fileNameOf path, ⟨bytes.toArray⟩)

/-- The classes are those of the files that have one. -/
theorem mem_classes {files : List Path} {file : List Char × ByteArray} :
    file ∈ classes disk files ↔ ∃ path ∈ files, ∃ bytes, compiled? disk path = some bytes ∧
      (fileNameOf path, ⟨bytes.toArray⟩) = file := by
  simp [classes]

/-- The job of a file among others, given its source. -/
def jobOf (source : Path → String) (path : Path) : Job :=
  ⟨path, ofClassName (classNameOf path), source path⟩

/-- A job with the bytes of its class. -/
def withResult (job : Job) : Job × Except Failure (List UInt8) :=
  (job, (Work.classBytes job.options job.source).result)

/-- The class of a file that has been read is that of its job. -/
theorem compiled?_eq
    {source : Path → String}
    {path : Path}
    (read : disk.readText path = .ok (source path)) :
    compiled? disk path = (withResult (jobOf source path)).2.toOption := by
  rw [compiled?, read]
  rfl

/-- Finishing the jobs of files puts their classes on the disk one after another. -/
theorem ends_finishJobs
    (log : Log.Filter)
    (listing : Bool)
    {source : Path → String}
    {files : List Path}
    (read : ∀ path ∈ files, disk.readText path = .ok (source path))
    (done : before.putAll root (classes disk files) = .ok after) :
    ∃ written, Ends (((files.map (jobOf source)).map withResult).mapM
      fun (job, result) => finishJob log root listing job result) before written after := by
  induction files generalizing before with
  | nil =>
      cases done
      exact ⟨[], .pure [] after⟩
  | cons path files inductionHypothesis =>
      obtain ⟨readHere, readLater⟩ := List.forall_mem_cons.mp read
      have isCompiled := compiled?_eq readHere
      simp only [List.map_cons, List.mapM_cons]
      cases outcome : (withResult (jobOf source path)).2 with
      | error failure =>
          rw [outcome] at isCompiled
          have skipped : classes disk (path :: files) = classes disk files := by
            simp [classes, isCompiled, Except.toOption]
          rw [skipped] at done
          obtain ⟨written, ends⟩ := inductionHypothesis readLater done
          exact ⟨false :: written, .bind (ends_finishJob_error log root listing _ failure before)
            (.bind ends (.pure _ after))⟩
      | ok bytes =>
          rw [outcome] at isCompiled
          have first : classes disk (path :: files) =
              (fileNameOf path, ⟨bytes.toArray⟩) :: classes disk files := by
            simp [classes, isCompiled, Except.toOption]
          rw [first, Disk.putAll_cons, ← target_eq] at done
          cases put : before.put (target root path) ⟨bytes.toArray⟩ with
          | error fault => simp [put, bind, Except.bind] at done
          | ok between =>
              simp only [put, bind, Except.bind] at done
              obtain ⟨written, ends⟩ := inductionHypothesis readLater done
              exact ⟨true :: written, .bind (ends_finishJob_ok log listing put)
                (.bind ends (.pure _ after))⟩

/-- Compiling several files that can be read puts the classes of those that have one on the disk,
one after another. -/
theorem ends_compileFiles
    (log : Log.Filter)
    (settings : CompileSettings)
    {files : List Path}
    (directory : Option Path)
    (listing : Bool)
    (several : 2 ≤ files.length)
    (readable : ∀ path ∈ files, ∃ source, disk.readText path = .ok source)
    (done : disk.putAll (directory.getD settings.outputDirectory) (classes disk files) =
      .ok after) :
    ∃ code, Ends (compileFiles log settings files directory none listing) disk code after := by
  choose! source read using readable
  have options (path : Path) :
      jobOptions settings none files.length path = ofClassName (classNameOf path) := by
    have notOne : files.length ≠ 1 := by omega
    simp [jobOptions, notOne]
  have jobs : Ends (files.mapM fun path => do
      let source ← readSource path
      return Job.mk path (jobOptions settings none files.length path) source) disk
      (files.map (jobOf source)) disk := by
    refine .mapM fun path present => .bind (ends_readSource (read path present)) ?_
    rw [options]
    exact .pure _ disk
  have results : Ends ((files.map (jobOf source)).mapM fun job => do
      return (job, ← compileJob log job)) disk ((files.map (jobOf source)).map withResult) disk :=
    .mapM fun job _ => .bind (ends_compileJob log job disk) (.pure _ disk)
  obtain ⟨written, finished⟩ := ends_finishJobs log listing read done
  exact ⟨_, .bind jobs (.bind results (.bind finished (.pure _ after)))⟩

/-- All files that have a class have it written to a file of its own, and find it there in the
end. -/
structure KeepsClasses (disk after : Disk) (root : Path) (files : List Path) : Prop where
  /-- No two of them are written to one file. -/
  apart : ∀ first ∈ files, ∀ second ∈ files,
    (compiled? disk first).isSome → (compiled? disk second).isSome →
    first ≠ second → target root first ≠ target root second
  /-- What is in the file is the class. -/
  kept : ∀ path ∈ files, ∀ bytes ∈ compiled? disk path,
    after.readBytes (target root path) = .ok ⟨bytes.toArray⟩

/-- The last of several files whose classes have one name keeps its class. -/
def KeepsLast (disk after : Disk) (root : Path) (files : List Path) : Prop :=
  ∀ early path late bytes, files = early ++ path :: late → compiled? disk path = some bytes →
    (∀ other ∈ late, (compiled? disk other).isSome → classNameOf other ≠ classNameOf path) →
    after.readBytes (target root path) = .ok ⟨bytes.toArray⟩

/-- If every class can be written by itself, they can all be written, and the last of a name is
kept. -/
theorem exists_keepsLast
    {files : List Path}
    (writable : ∀ path ∈ files, ∀ bytes ∈ compiled? disk path,
      ∃ after, disk.put (target root path) ⟨bytes.toArray⟩ = .ok after) :
    ∃ after, disk.putAll root (classes disk files) = .ok after ∧
      KeepsLast disk after root files := by
  have areNames : ∀ file ∈ classes disk files, Path.IsName file.1 := by
    intro file present
    obtain ⟨path, -, bytes, -, rfl⟩ := mem_classes.mp present
    exact Compile.Options.isName_fileNameOf path
  have alone : ∀ file ∈ classes disk files, ∃ after,
      disk.put (root.push ⟨String.ofList file.1⟩) file.2 = .ok after := by
    intro file present
    obtain ⟨path, inFiles, bytes, isCompiled, rfl⟩ := mem_classes.mp present
    rw [← target_eq]
    exact writable path inFiles bytes isCompiled
  obtain ⟨after, done, last⟩ := disk.exists_putAll root areNames alone
  refine ⟨after, done, ?_⟩
  rintro early path late bytes rfl isCompiled isLast
  rw [target_eq]
  refine last (classes disk early) (fileNameOf path) ⟨bytes.toArray⟩ (classes disk late) ?_ ?_
  · simp [classes, isCompiled]
  · intro file present same
    obtain ⟨other, inLate, others, otherCompiled, rfl⟩ := mem_classes.mp present
    exact isLast other inLate (by simp [otherCompiled]) (Compile.Options.fileNameOf_inj.mp same)

/-- Classes get lost only by one name. -/
theorem KeepsLast.keepsClasses_iff
    {files : List Path}
    (keepsLast : KeepsLast disk after root files) :
    KeepsClasses disk after root files ↔
      ∀ first ∈ files, ∀ second ∈ files,
        (compiled? disk first).isSome → (compiled? disk second).isSome →
        first ≠ second → classNameOf first ≠ classNameOf second := by
  constructor
  · intro keeps first firstIn second secondIn firstHas secondHas different same
    exact keeps.apart first firstIn second secondIn firstHas secondHas different
      (target_inj.mpr same)
  · intro distinct
    refine ⟨fun first firstIn second secondIn firstHas secondHas different same => ?_, ?_⟩
    · exact distinct first firstIn second secondIn firstHas secondHas different
        (target_inj.mp same)
    · intro path present bytes isCompiled
      -- The file may be named more than once: its last place in the list counts.
      obtain ⟨late, early, split, notLate⟩ :=
        List.eq_append_cons_of_mem (List.mem_reverse.mpr present)
      have whole : files = early.reverse ++ path :: late.reverse := by
        simpa using congrArg List.reverse split
      refine keepsLast early.reverse path late.reverse bytes whole isCompiled ?_
      intro other inLate otherHas
      have inFiles : other ∈ files := by simp [whole, List.mem_reverse.mp inLate]
      have pathHas : (compiled? disk path).isSome := by simp [Option.mem_def.mp isCompiled]
      refine distinct other inFiles path present otherHas pathHas ?_
      rintro rfl
      exact notLate (List.mem_reverse.mp inLate)

/-! ## Sources side by side -/

/-- Three sources, two of which give their classes one name. -/
def shelf : Disk where
  files := [
    (["work", "fizz-buzz.emojin"], "✅⛔\uFE0F".toUTF8),
    (["work", "fizz_buzz.emojin"], "".toUTF8),
    (["work", "hello.emojin"], "".toUTF8)]
  directories := []
  working := ["work"]

theorem parse_blank : parseTokens (tokenize "") = .ok [] := by
  have tokens : tokenize "" = [.endOfInput 0 ⟨1, 1⟩] := Scan.tokenize_of_yields (by decide +kernel)
  rw [tokens]
  cbv

theorem parse_truth : parseTokens (tokenize "✅⛔\uFE0F") =
    .ok [.evaluate (.literal (.boolean true) ⟨1, 1⟩)] := by
  have tokens : tokenize "✅⛔\uFE0F" = [⟨.trueLiteral, ⟨0, 3⟩, ⟨1, 1⟩⟩,
      ⟨.stop, ⟨3, 9⟩, ⟨1, 2⟩⟩, .endOfInput 9 ⟨1, 3⟩] :=
    Scan.tokenize_of_yields (by decide +kernel)
  rw [tokens]
  cbv

/-- The first two sources have classes of one name and of different sizes. -/
theorem exists_compiled_shelf :
    ∃ first second third : List UInt8, compiled? shelf ⟨"fizz-buzz.emojin"⟩ = some first ∧
      compiled? shelf ⟨"fizz_buzz.emojin"⟩ = some second ∧
      compiled? shelf ⟨"hello.emojin"⟩ = some third ∧ first.length = second.length + 2 := by
  have truthCode : Compile.HasPlainCode [.evaluate (.literal (.boolean true) ⟨1, 1⟩)]
      [0x04, 0x57, 0xB1] := fun _ => ⟨_, rfl, rfl, rfl⟩
  have blankCode : Compile.HasPlainCode [] [0xB1] := fun _ => ⟨_, rfl, rfl, rfl⟩
  obtain ⟨size, written⟩ := Compile.exists_classBytes (ofClassName "Fizz_buzz")
    (by decide) (by decide)
  obtain ⟨_, writtenHello⟩ := Compile.exists_classBytes (ofClassName "Hello")
    (by decide) (by decide)
  obtain ⟨first, firstBuilt, firstSize⟩ := written _ _ truthCode (by decide)
  obtain ⟨second, secondBuilt, secondSize⟩ := written _ _ blankCode (by decide)
  obtain ⟨third, thirdBuilt, -⟩ := writtenHello _ _ blankCode (by decide)
  refine ⟨first, second, third, compiled?_eq_some rfl parse_truth firstBuilt,
    compiled?_eq_some rfl parse_blank secondBuilt, compiled?_eq_some rfl parse_blank thirdBuilt, ?_⟩
  rw [firstSize, secondSize]
  rfl

/-- Every source on the shelf is a text. -/
theorem readable_shelf :
    ∀ path ∈ [Path.mk "fizz-buzz.emojin", ⟨"fizz_buzz.emojin"⟩, ⟨"hello.emojin"⟩],
      ∃ source, shelf.readText path = .ok source := by
  intro path present
  simp only [List.mem_cons, List.not_mem_nil, or_false] at present
  rcases present with rfl | rfl | rfl
  · exact ⟨"✅⛔\uFE0F", rfl⟩
  · exact ⟨"", rfl⟩
  · exact ⟨"", rfl⟩

/-- Every class of the shelf can be written to the working directory. -/
theorem writable_shelf :
    ∀ path ∈ [Path.mk "fizz-buzz.emojin", ⟨"fizz_buzz.emojin"⟩, ⟨"hello.emojin"⟩],
      ∀ bytes ∈ compiled? shelf path, ∃ after,
        shelf.put (target ⟨"."⟩ path) ⟨bytes.toArray⟩ = .ok after := by
  intro path present bytes _
  simp only [List.mem_cons, List.not_mem_nil, or_false] at present
  rcases present with rfl | rfl | rfl
  · exact ⟨shelf.withFile ["work", "Fizz_buzz.class"] ⟨bytes.toArray⟩, rfl⟩
  · exact ⟨shelf.withFile ["work", "Fizz_buzz.class"] ⟨bytes.toArray⟩, rfl⟩
  · exact ⟨shelf.withFile ["work", "Hello.class"] ⟨bytes.toArray⟩, rfl⟩

/-! ## What is left of several classes -/

/-- When several files are compiled that can be read, and the class of each could be written alone,
the command ends, and the last of those that give their classes one name keeps its class.  So every
file keeps its class, in a file of its own, just when no two give their classes one name. -/
theorem compileFiles_keeps_classes
    (log : Log.Filter)
    (settings : CompileSettings)
    (files : List Path)
    (directory : Option Path)
    (listing : Bool)
    (world : World)
    (several : 2 ≤ files.length)
    (readable : ∀ path ∈ files, ∃ source, world.disk.readText path = .ok source)
    (writable : ∀ path ∈ files, ∀ bytes ∈ compiled? world.disk path, ∃ after,
      world.disk.put (target (directory.getD settings.outputDirectory) path) ⟨bytes.toArray⟩ =
        .ok after) :
    ∃ (code : UInt32) (later : World),
      (compileFiles log settings files directory none listing : World.Task UInt32).run.run world =
        (.ok code, later) ∧
      KeepsLast world.disk later.disk (directory.getD settings.outputDirectory) files ∧
      (KeepsClasses world.disk later.disk (directory.getD settings.outputDirectory) files ↔
        ∀ first ∈ files, ∀ second ∈ files,
          (compiled? world.disk first).isSome → (compiled? world.disk second).isSome →
          first ≠ second → classNameOf first ≠ classNameOf second) := by
  obtain ⟨after, done, keepsLast⟩ := exists_keepsLast writable
  obtain ⟨code, ends⟩ := ends_compileFiles log settings directory listing several readable done
  obtain ⟨later, ran, rfl⟩ := ends world rfl
  exact ⟨code, later, ran, keepsLast, keepsLast.keepsClasses_iff⟩

/-- Two sources that give their classes different names keep them. -/
theorem compileFiles_keeps_classes_shelf :
    (compiled? shelf ⟨"fizz-buzz.emojin"⟩).isSome ∧ (compiled? shelf ⟨"hello.emojin"⟩).isSome ∧
    ∃ (code : UInt32) (later : World),
      (compileFiles (.atLeast .warn) .default [⟨"fizz-buzz.emojin"⟩, ⟨"hello.emojin"⟩] none none
        false : World.Task UInt32).run.run (.ofDisk shelf [] none) = (.ok code, later) ∧
      KeepsClasses shelf later.disk ⟨"."⟩ [⟨"fizz-buzz.emojin"⟩, ⟨"hello.emojin"⟩] := by
  obtain ⟨first, -, third, isFirst, -, isThird, -⟩ := exists_compiled_shelf
  refine ⟨by simp [isFirst], by simp [isThird], ?_⟩
  have listed : [Path.mk "fizz-buzz.emojin", ⟨"hello.emojin"⟩] ⊆
      [⟨"fizz-buzz.emojin"⟩, ⟨"fizz_buzz.emojin"⟩, ⟨"hello.emojin"⟩] := by decide
  obtain ⟨code, later, ran, -, keeps⟩ := compileFiles_keeps_classes (.atLeast .warn) .default
    [⟨"fizz-buzz.emojin"⟩, ⟨"hello.emojin"⟩] none false (.ofDisk shelf [] none) (by decide)
    (fun path present => readable_shelf path (listed present))
    (fun path present => writable_shelf path (listed present))
  have distinct : ∀ first ∈ [Path.mk "fizz-buzz.emojin", ⟨"hello.emojin"⟩],
      ∀ second ∈ [Path.mk "fizz-buzz.emojin", ⟨"hello.emojin"⟩],
        first ≠ second → classNameOf first ≠ classNameOf second := by
    decide
  exact ⟨code, later, ran,
    keeps.mpr fun first firstIn second secondIn _ _ => distinct first firstIn second secondIn⟩

/-- Two sources that give their classes one name are both compiled, and the class of the first is
lost. -/
theorem not_keepsClasses_shelf :
    ∃ (code : UInt32) (later : World) (first second : List UInt8),
      (compileFiles (.atLeast .warn) .default [⟨"fizz-buzz.emojin"⟩, ⟨"fizz_buzz.emojin"⟩] none none
        false : World.Task UInt32).run.run (.ofDisk shelf [] none) = (.ok code, later) ∧
      compiled? shelf ⟨"fizz-buzz.emojin"⟩ = some first ∧
      compiled? shelf ⟨"fizz_buzz.emojin"⟩ = some second ∧ first ≠ second ∧
      later.disk.readBytes (target ⟨"."⟩ ⟨"fizz-buzz.emojin"⟩) = .ok ⟨second.toArray⟩ ∧
      ¬KeepsClasses shelf later.disk ⟨"."⟩ [⟨"fizz-buzz.emojin"⟩, ⟨"fizz_buzz.emojin"⟩] := by
  obtain ⟨first, second, -, isFirst, isSecond, -, sizes⟩ := exists_compiled_shelf
  have listed : [Path.mk "fizz-buzz.emojin", ⟨"fizz_buzz.emojin"⟩] ⊆
      [⟨"fizz-buzz.emojin"⟩, ⟨"fizz_buzz.emojin"⟩, ⟨"hello.emojin"⟩] := by decide
  obtain ⟨after, done, keepsLast⟩ :=
    exists_keepsLast fun path present => writable_shelf path (listed present)
  obtain ⟨code, ends⟩ := ends_compileFiles (.atLeast .warn) .default none false (by decide)
    (fun path present => readable_shelf path (listed present)) done
  obtain ⟨later, ran, rfl⟩ := ends (.ofDisk shelf [] none) rfl
  have same : target ⟨"."⟩ ⟨"fizz-buzz.emojin"⟩ = target ⟨"."⟩ ⟨"fizz_buzz.emojin"⟩ :=
    target_inj.mpr rfl
  have different : first ≠ second := by
    rintro rfl
    omega
  refine ⟨code, later, first, second, ran, isFirst, isSecond, different, ?_, fun keeps => ?_⟩
  · rw [same]
    exact keepsLast [⟨"fizz-buzz.emojin"⟩] ⟨"fizz_buzz.emojin"⟩ [] second rfl isSecond (by simp)
  · exact keeps.apart _ (by simp) _ (by simp) (by simp [isFirst]) (by simp [isSecond]) (by decide)
      same

end CommandLine

end Pictogram
