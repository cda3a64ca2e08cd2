import Pictogram.Disk
import Pictogram.Proofs.Path

/-!
# Writing files

A file that is written is found again at its path, and other files stay as they
are.  Files of one directory do not get into each other's way: where each can be
written alone, all can be written one after another, and of two of one name the
later one is left.
-/

namespace Pictogram

namespace Disk

variable {disk before after : Disk} {path : Path} {place other : Place} {content : ByteArray}

/-! ## Places -/

/-- Where a path starts. -/
def start (disk : Disk) (path : Path) : Place := if path.isAbsolute then [] else disk.working

/-- A path is followed name by name, unless it is malformed. -/
theorem resolve_eq_ok_iff :
    disk.resolve path = .ok place ↔
      ('\x00' ∉ path.text.toList ∧ path.text ≠ "" ∧ path.text.utf8ByteSize < pathLimit) ∧
      path.names.foldlM disk.step (disk.start path) = .ok place ∧
      (path.EndsOpen → ∀ content, disk.entry place ≠ .file content) := by
  unfold resolve
  by_cases zero : '\x00' ∈ path.text.toList
  · simp [zero, bind, Except.bind, throw, throwThe, MonadExceptOf.throw]
  by_cases blank : path.text = ""
  · simp [blank, bind, Except.bind, throw, throwThe, MonadExceptOf.throw]
  by_cases short : path.text.utf8ByteSize < pathLimit
  · simp only [List.contains_iff_mem, zero, String.isEmpty_iff, blank, short, if_false, if_true,
      bind, Except.bind, pure, Except.pure, throw, throwThe, MonadExceptOf.throw,
      not_false_iff, ne_eq, and_self, true_and]
    unfold Path.names Path.Segment.name? start Path.EndsOpen
    generalize (List.foldlM disk.step _ _ : Except FileFault Place) = followed
    cases followed with
    | error fault => simp
    | ok found =>
        generalize path.segments.getLast?.map (·.counts) = last
        match last with
        | none | some true => simp
        | some false =>
            cases here : disk.entry found with
            | file content =>
                simp only [here, reduceCtorEq, Except.ok.injEq, forall_const, false_iff, not_and]
                rintro rfl away
                exact away content here
            | directory | nothing =>
                simp only [here, Except.ok.injEq, forall_const, iff_self_and]
                rintro rfl
                simp [here]
  · simp [zero, blank, short, bind, Except.bind, throw, throwThe, MonadExceptOf.throw]

theorem entry_eq_file_iff : disk.entry place = .file content ↔
    disk.files.lookup place = some content := by
  unfold entry
  cases disk.files.lookup place with
  | some found => simp
  | none => by_cases holds : disk.holds place <;> simp [holds]

theorem entry_eq_directory_iff : disk.entry place = .directory ↔
    disk.files.lookup place = none ∧ disk.holds place := by
  unfold entry
  cases disk.files.lookup place with
  | some found => simp
  | none => by_cases holds : disk.holds place <;> simp [holds]

/-- A place is a directory if it is the root, leads to a directory, or leads to a file inside it. -/
theorem holds_iff : disk.holds place ↔ place = [] ∨ (∃ below ∈ disk.directories, place <+: below) ∨
    ∃ file ∈ disk.files, place <+: file.1 ∧ file.1 ≠ place := by
  simp [holds, or_assoc]

/-- What was a directory is one still. -/
structure Grows (before after : Disk) : Prop where
  working : after.working = before.working
  directory : ∀ place, before.entry place = .directory → after.entry place = .directory

/-- A step into a directory is still possible on a disk that has grown. -/
theorem Grows.step (grows : Grows before after) {name : String}
    (found : before.step place name = .ok other) : after.step place name = .ok other := by
  unfold Disk.step at found ⊢
  cases here : before.entry place with
  | nothing => simp [here] at found
  | file content => simp [here] at found
  | directory => simpa [here, grows.directory place here] using found

/-- Steps that led to a place still lead there on a disk that has grown. -/
theorem Grows.foldlM_step (grows : Grows before after) {names : List String}
    (found : names.foldlM before.step place = .ok other) :
    names.foldlM after.step place = .ok other := by
  induction names generalizing place with
  | nil => exact found
  | cons name names inductionHypothesis =>
      rw [List.foldlM_cons] at found ⊢
      cases first : before.step place name with
      | error fault => simp [first, bind, Except.bind] at found
      | ok next =>
          rw [first] at found
          rw [grows.step first]
          exact inductionHypothesis found

/-- A path leads where it led, unless it goes on below a file. -/
theorem Grows.resolve
    (grows : Grows before after)
    (found : before.resolve path = .ok place)
    (noFile : path.EndsOpen → ∀ content, after.entry place ≠ .file content) :
    after.resolve path = .ok place := by
  rw [resolve_eq_ok_iff] at found ⊢
  obtain ⟨formed, followed, -⟩ := found
  have sameStart : after.start path = before.start path := by rw [start, start, grows.working]
  rw [sameStart]
  exact ⟨formed, grows.foldlM_step followed, noFile⟩

/-- A path is that of a directory if it leads to one. -/
theorem isDirectory_iff : disk.isDirectory path ↔
    ∃ place, disk.resolve path = .ok place ∧ disk.entry place = .directory := by
  unfold isDirectory find
  cases disk.resolve path with
  | error fault => simp [bind, Except.bind]
  | ok found => cases here : disk.entry found <;> simp [here, bind, Except.bind, pure, Except.pure]

/-- A directory stays one on a disk that has grown. -/
theorem Grows.isDirectory (grows : Grows before after) (found : before.isDirectory path) :
    after.isDirectory path := by
  rw [isDirectory_iff] at found ⊢
  obtain ⟨place, resolved, here⟩ := found
  have stays := grows.directory place here
  exact ⟨place, grows.resolve resolved (by simp [stays]), stays⟩

/-! ## Files -/

/-- The disk with a file at a place. -/
def withFile (disk : Disk) (place : Place) (content : ByteArray) : Disk :=
  { disk with files := (place, content) :: disk.files.filter (·.1 ≠ place) }

theorem lookup_withFile_self :
    (disk.withFile place content).files.lookup place = some content := by
  simp [withFile]

/-- Writing a file leaves the files at other places alone. -/
theorem lookup_withFile_of_ne (apart : other ≠ place) :
    (disk.withFile place content).files.lookup other = disk.files.lookup other := by
  have kept : (disk.files.filter (·.1 ≠ place)).lookup other = disk.files.lookup other := by
    induction disk.files with
    | nil => rfl
    | cons file files inductionHypothesis =>
        by_cases same : file.1 = place
        · have passed : (other == file.1) = false := by simpa [same] using apart
          rw [List.filter_cons_of_neg (by simpa using same), inductionHypothesis, List.lookup_cons,
            passed]
        · rw [List.filter_cons_of_pos (by simpa using same), List.lookup_cons, List.lookup_cons,
            inductionHypothesis]
  have passed : (other == place) = false := by simpa using apart
  rw [withFile, List.lookup_cons, passed]
  exact kept

/-- A file adds the directories that lead to it. -/
theorem holds_withFile : (disk.withFile place content).holds other ↔
    disk.holds other ∨ (other <+: place ∧ place ≠ other) := by
  simp only [holds_iff, withFile, List.mem_cons, List.mem_filter, exists_eq_or_imp,
    decide_eq_true_eq]
  constructor
  · rintro (isRoot | isAbove | leads | ⟨file, ⟨present, -⟩, leads⟩)
    · exact .inl (.inl isRoot)
    · exact .inl (.inr (.inl isAbove))
    · exact .inr leads
    · exact .inl (.inr (.inr ⟨file, present, leads⟩))
  · rintro ((isRoot | isAbove | ⟨file, present, leads⟩) | leads)
    · exact .inl isRoot
    · exact .inr (.inl isAbove)
    · by_cases same : file.1 = place
      · exact .inr (.inr (.inl (same ▸ leads)))
      · exact .inr (.inr (.inr ⟨file, ⟨present, same⟩, leads⟩))
    · exact .inr (.inr (.inl leads))

/-- A file that is not written over a directory lets the disk grow. -/
theorem grows_withFile (free : disk.entry place ≠ .directory) (content : ByteArray) :
    Grows disk (disk.withFile place content) where
  working := rfl
  directory := by
    intro other isDirectory
    have apart : other ≠ place := by
      rintro rfl
      exact free isDirectory
    rw [entry_eq_directory_iff] at isDirectory ⊢
    exact ⟨(lookup_withFile_of_ne apart).trans isDirectory.1,
      holds_withFile.mpr (.inl isDirectory.2)⟩

/-- A file makes no directory of a place that does not lead to it. -/
theorem entry_withFile_ne_directory
    (free : disk.entry other ≠ .directory)
    (beside : ¬(other <+: place ∧ place ≠ other)) :
    (disk.withFile place content).entry other ≠ .directory := by
  intro isDirectory
  obtain ⟨noFile, leads⟩ := entry_eq_directory_iff.mp isDirectory
  have apart : other ≠ place := by
    rintro rfl
    simp [lookup_withFile_self] at noFile
  rw [lookup_withFile_of_ne apart] at noFile
  exact free (entry_eq_directory_iff.mpr
    ⟨noFile, (holds_withFile.mp leads).resolve_right beside⟩)

/-- A file is written where its path leads, unless there is a directory. -/
theorem writeBytes_eq (resolved : disk.resolve path = .ok place)
    (free : disk.entry place ≠ .directory) (content : ByteArray) :
    disk.writeBytes path content = .ok (disk.withFile place content) := by
  unfold writeBytes
  rw [resolved]
  cases here : disk.entry place with
  | directory => exact absurd here free
  | file | nothing => simp [here, bind, Except.bind, pure, Except.pure, withFile]

/-- A path that a file has been written to leads somewhere, and not to a directory. -/
theorem of_writeBytes (written : disk.writeBytes path content = .ok after) :
    ∃ place, disk.resolve path = .ok place ∧ disk.entry place ≠ .directory := by
  unfold writeBytes at written
  cases resolved : disk.resolve path with
  | error fault => simp [resolved, bind, Except.bind] at written
  | ok place =>
      refine ⟨place, rfl, ?_⟩
      intro here
      simp [resolved, here, bind, Except.bind, throw, throwThe, MonadExceptOf.throw] at written

/-- A file is read from where its path leads. -/
theorem readBytes_eq (resolved : disk.resolve path = .ok place)
    (here : disk.files.lookup place = some content) :
    disk.readBytes path = .ok content := by
  rw [readBytes, find, resolved]
  simp [bind, Except.bind, pure, Except.pure, entry_eq_file_iff.mpr here]

/-! ## Directories -/

/-- The disk with a directory at a place. -/
def withDirectory (disk : Disk) (place : Place) : Disk :=
  { disk with directories := place :: disk.directories }

/-- A new directory lets the disk grow. -/
theorem grows_withDirectory (disk : Disk) (place : Place) :
    Grows disk (disk.withDirectory place) where
  working := rfl
  directory := by
    intro other isDirectory
    rw [entry_eq_directory_iff] at isDirectory ⊢
    refine ⟨isDirectory.1, ?_⟩
    rcases holds_iff.mp isDirectory.2 with isRoot | ⟨below, present, leads⟩ | isAbove
    · exact holds_iff.mpr (.inl isRoot)
    · exact holds_iff.mpr (.inr (.inl ⟨below, List.mem_cons_of_mem place present, leads⟩))
    · exact holds_iff.mpr (.inr (.inr isAbove))

/-- A directory that has been made is there. -/
theorem isDirectory_of_makeDirectory (made : disk.makeDirectory path = .ok after) :
    after.isDirectory path := by
  unfold makeDirectory at made
  cases resolved : disk.resolve path with
  | error fault => simp [resolved, bind, Except.bind] at made
  | ok place =>
      cases here : disk.entry place with
      | file | directory =>
          simp [resolved, here, bind, Except.bind, throw, throwThe, MonadExceptOf.throw] at made
      | nothing =>
          simp only [resolved, here, bind, Except.bind, pure, Except.pure, Except.ok.injEq] at made
          have isNew : (disk.withDirectory place).entry place = .directory := by
            refine entry_eq_directory_iff.mpr ⟨?_, holds_iff.mpr (.inr (.inl ⟨place, ?_⟩))⟩
            · cases file : disk.files.lookup place with
              | none => exact file
              | some content => simp [entry_eq_file_iff.mpr file] at here
            · simp [withDirectory]
          rw [← made]
          exact isDirectory_iff.mpr
            ⟨place, (grows_withDirectory disk place).resolve resolved (by simp [isNew]), isNew⟩

/-- A directory that has been made sure of is there. -/
theorem isDirectory_of_ensureDirectory (made : disk.ensureDirectory path = .ok after) :
    after.isDirectory path := by
  unfold ensureDirectory at made
  cases new : disk.makeDirectory path with
  | ok later =>
      simp only [new, Except.ok.injEq] at made
      exact made ▸ isDirectory_of_makeDirectory new
  | error fault =>
      by_cases isDirectory : disk.isDirectory path
      · simp only [new, isDirectory, if_true, Except.ok.injEq] at made
        exact made ▸ isDirectory
      · simp [new, isDirectory] at made

/-- A directory that is there is not made again. -/
theorem ensureDirectory_of_isDirectory (isDirectory : disk.isDirectory path) :
    disk.ensureDirectory path = .ok disk := by
  obtain ⟨place, resolved, here⟩ := isDirectory_iff.mp isDirectory
  have refused : disk.makeDirectory path = .error .alreadyExists := by
    simp [makeDirectory, resolved, here, bind, Except.bind, throw, throwThe, MonadExceptOf.throw]
  simp [ensureDirectory, refused, isDirectory]

/-- A path that a file can be put below: no path at all, or that of a directory. -/
def Leads (disk : Disk) (path : Path) : Prop := path.text = "" ∨ disk.isDirectory path

/-- A file can be put below a path whose directories have been made. -/
theorem leads_of_makeDirectories (made : disk.makeDirectories path = .ok after) :
    after.Leads path := by
  unfold makeDirectories at made
  rw [makeDirectoriesWithin] at made
  by_cases blank : path.text = ""
  · exact .inl blank
  · rw [if_neg (by simpa using blank)] at made
    right
    split at made
    · next parent _ _ =>
        cases above : disk.makeDirectoriesWithin parent (path.text.length + 1) with
        | error fault => simp [above, bind, Except.bind] at made
        | ok between =>
            rw [above] at made
            exact isDirectory_of_ensureDirectory made
    · exact isDirectory_of_ensureDirectory made

/-- No directory is made for a path that a file can be put below. -/
theorem Leads.makeDirectories (leads : disk.Leads path) : disk.makeDirectories path = .ok disk := by
  rw [Disk.makeDirectories, makeDirectoriesWithin]
  rcases leads with blank | isDirectory
  · simp [blank]
  · by_cases blank : path.text = ""
    · simp [blank]
    · simp [blank, ensureDirectory_of_isDirectory isDirectory]

/-- A file can still be put below a path on a disk that has grown. -/
theorem Grows.leads (grows : Grows before after) (leads : before.Leads path) : after.Leads path :=
  leads.imp_right grows.isDirectory

/-! ## One file after another -/

/-- The disk with a file and the directories that lead to it. -/
def put (disk : Disk) (path : Path) (content : ByteArray) : Except FileFault Disk := do
  let disk ← match path.parent? with
    | some parent => disk.makeDirectories parent
    | none => .ok disk
  disk.writeBytes path content

/-- A path that leads to a place where a file can be written as the disk stands. -/
structure Takes (disk : Disk) (path : Path) (place : Place) : Prop where
  /-- The file has its directories. -/
  leads : ∀ parent ∈ path.parent?, disk.Leads parent
  /-- The path leads to the place. -/
  resolved : disk.resolve path = .ok place
  /-- No directory is in the way. -/
  free : disk.entry place ≠ .directory

/-- A file that a path takes is put at the place where the path leads. -/
theorem Takes.put_eq (takes : disk.Takes path place) (content : ByteArray) :
    disk.put path content = .ok (disk.withFile place content) := by
  unfold put
  cases above : path.parent? with
  | none => exact writeBytes_eq takes.resolved takes.free content
  | some parent =>
      show disk.makeDirectories parent >>= _ = _
      rw [(takes.leads parent above).makeDirectories]
      exact writeBytes_eq takes.resolved takes.free content

/-- A file that is written beside a place leaves the place as free as it was. -/
theorem Takes.withFile
    (takes : disk.Takes path other)
    (free : disk.entry place ≠ .directory)
    (closed : ¬path.EndsOpen)
    (beside : ¬(other <+: place ∧ place ≠ other))
    (content : ByteArray) :
    (disk.withFile place content).Takes path other where
  leads := fun parent above => (grows_withFile free content).leads (takes.leads parent above)
  resolved := (grows_withFile free content).resolve takes.resolved (absurd · closed)
  free := entry_withFile_ne_directory takes.free beside

variable {root : Path}

/-- The place that a name below a path leads to is that name below one place. -/
theorem exists_base (disk : Disk) (root : Path) :
    ∃ found : Except FileFault Place, ∀ name, Path.IsName name →
      ∀ place, disk.resolve (root.push ⟨String.ofList name⟩) = .ok place →
        ∃ base, found = .ok base ∧ place = base ++ [String.ofList name] := by
  obtain ⟨front, names⟩ := root.exists_names_push
  refine ⟨front.foldlM disk.step (disk.start root), fun name isName place resolved => ?_⟩
  obtain ⟨-, followed, -⟩ := resolve_eq_ok_iff.mp resolved
  have sameStart : disk.start (root.push ⟨String.ofList name⟩) = disk.start root := by
    rw [start, start, Path.isAbsolute_push isName]
  rw [names name isName, sameStart, List.foldlM_append] at followed
  cases reached : front.foldlM disk.step (disk.start root) with
  | error fault => simp [reached, bind, Except.bind] at followed
  | ok base =>
      refine ⟨base, rfl, ?_⟩
      rw [reached] at followed
      change [String.ofList name].foldlM disk.step base = .ok place at followed
      simp only [List.foldlM_cons, List.foldlM_nil, bind_pure, step] at followed
      have notAbove : String.ofList name ≠ ".." := by
        intro isAbove
        exact isName.notAbove (by simpa using congrArg String.toList isAbove)
      cases here : disk.entry base with
      | nothing | file => simp [here] at followed
      | directory =>
          rw [here] at followed
          by_cases short : (String.ofList name).utf8ByteSize ≤ nameLimit
          · simpa [notAbove, short, eq_comm] using followed
          · simp [notAbove, short] at followed

/-- Where each of some files can be put below a path alone, the disk with the directory for them
takes each of them, and gets there with the first. -/
theorem exists_ready
    (disk : Disk)
    (root : Path)
    {names : List (List Char)}
    (areNames : ∀ name ∈ names, Path.IsName name)
    (writable : ∀ name ∈ names, ∃ content after,
      disk.put (root.push ⟨String.ofList name⟩) content = .ok after) :
    ∃ (ready : Disk) (base : Place), ∀ name ∈ names,
      ready.Takes (root.push ⟨String.ofList name⟩) (base ++ [String.ofList name]) ∧
      ∀ content, disk.put (root.push ⟨String.ofList name⟩) content =
        ready.put (root.push ⟨String.ofList name⟩) content := by
  obtain ⟨parent, above⟩ := root.exists_parent?_push
  have put_eq (disk : Disk) {name : List Char} (isName : Path.IsName name) (content : ByteArray) :
      disk.put (root.push ⟨String.ofList name⟩) content =
        disk.makeDirectories parent >>= fun made =>
          made.writeBytes (root.push ⟨String.ofList name⟩) content := by
    rw [put, above name isName]
  -- All names have one parent, so the directories are made for all of them or for none.
  cases made : disk.makeDirectories parent with
  | error fault =>
      refine ⟨disk, [], fun name present => ?_⟩
      obtain ⟨content, after, done⟩ := writable name present
      rw [put_eq disk (areNames name present), made] at done
      simp [bind, Except.bind] at done
  | ok ready =>
      have leads : ready.Leads parent := leads_of_makeDirectories made
      obtain ⟨found, reached⟩ := ready.exists_base root
      have place (name : List Char) (present : name ∈ names) : ∃ base, found = .ok base ∧
          ready.Takes (root.push ⟨String.ofList name⟩) (base ++ [String.ofList name]) := by
        have isName := areNames name present
        obtain ⟨content, after, done⟩ := writable name present
        rw [put_eq disk isName, made] at done
        obtain ⟨place, resolved, free⟩ := of_writeBytes done
        obtain ⟨base, isFound, rfl⟩ := reached name isName place resolved
        refine ⟨base, isFound, ?_, resolved, free⟩
        intro other isAbove
        rw [above name isName, Option.mem_some_iff] at isAbove
        exact isAbove ▸ leads
      cases found with
      | error fault =>
          refine ⟨ready, [], fun name present => ?_⟩
          obtain ⟨base, isFound, -⟩ := place name present
          cases isFound
      | ok base =>
          refine ⟨ready, base, fun name present => ?_⟩
          obtain ⟨_, isFound, takes⟩ := place name present
          cases isFound
          refine ⟨takes, fun content => ?_⟩
          rw [put_eq disk (areNames name present), put_eq ready (areNames name present), made,
            leads.makeDirectories]

/-- The disk with files, given by their names, below a path. -/
def putAll (disk : Disk) (root : Path) (files : List (List Char × ByteArray)) :
    Except FileFault Disk :=
  files.foldlM (fun disk file => disk.put (root.push ⟨String.ofList file.1⟩) file.2) disk

theorem putAll_cons (file : List Char × ByteArray) (files : List (List Char × ByteArray)) :
    disk.putAll root (file :: files) =
      disk.put (root.push ⟨String.ofList file.1⟩) file.2 >>= (·.putAll root files) :=
  List.foldlM_cons

/-- Files in a row are put as the first ones and then the others. -/
theorem putAll_append (early late : List (List Char × ByteArray)) :
    disk.putAll root (early ++ late) = disk.putAll root early >>= (·.putAll root late) :=
  List.foldlM_append

/-- A name can be written below a path, at its place below another place. -/
def Offers (disk : Disk) (root : Path) (base : Place) (name : List Char) : Prop :=
  Path.IsName name ∧
    disk.Takes (root.push ⟨String.ofList name⟩) (base ++ [String.ofList name])

/-- Writing one of the names leaves the others. -/
theorem Offers.withFile
    {base : Place}
    {name other : List Char}
    (offers : disk.Offers root base other)
    (written : disk.Offers root base name)
    (content : ByteArray) :
    (disk.withFile (base ++ [String.ofList name]) content).Offers root base other := by
  refine ⟨offers.1, offers.2.withFile written.2.free (root.not_endsOpen_push offers.1) ?_ content⟩
  rintro ⟨leads, apart⟩
  exact apart (leads.eq_of_length (by simp)).symm

/-- The names that are offered stay so while some of them are written, and what else is on the
disk stays as it is. -/
theorem exists_putAll_of_offers
    {base : Place}
    {files : List (List Char × ByteArray)}
    (offers : ∀ file ∈ files, disk.Offers root base file.1) :
    ∃ after, disk.putAll root files = .ok after ∧
      (∀ name, disk.Offers root base name → after.Offers root base name) ∧
      ∀ place, (∀ file ∈ files, place ≠ base ++ [String.ofList file.1]) →
        after.files.lookup place = disk.files.lookup place := by
  induction files generalizing disk with
  | nil => exact ⟨disk, rfl, fun _ offered => offered, fun _ _ => rfl⟩
  | cons file files inductionHypothesis =>
      obtain ⟨here, later⟩ := List.forall_mem_cons.mp offers
      obtain ⟨after, done, stay, same⟩ := inductionHypothesis
        fun other present => (later other present).withFile here file.2
      refine ⟨after, ?_, fun name offered => stay name (offered.withFile here file.2), ?_⟩
      · rw [putAll_cons, here.2.put_eq]
        exact done
      · intro place apart
        obtain ⟨apartHere, apartLater⟩ := List.forall_mem_cons.mp apart
        rw [same place apartLater, lookup_withFile_of_ne apartHere]

/-- Of the files of one name, the last is read in the end. -/
theorem readBytes_of_putAll
    {base : Place}
    {early late : List (List Char × ByteArray)}
    {name : List Char}
    (offers : ∀ file ∈ early ++ (name, content) :: late, disk.Offers root base file.1)
    (isLast : ∀ file ∈ late, file.1 ≠ name)
    (done : disk.putAll root (early ++ (name, content) :: late) = .ok after) :
    after.readBytes (root.push ⟨String.ofList name⟩) = .ok content := by
  rw [List.forall_mem_append, List.forall_mem_cons] at offers
  obtain ⟨offersEarly, offersHere, offersLate⟩ := offers
  obtain ⟨middle, doneEarly, stay, -⟩ := exists_putAll_of_offers offersEarly
  have here := stay name offersHere
  obtain ⟨final, doneLate, stayLate, same⟩ := exists_putAll_of_offers
    fun file present => (stay file.1 (offersLate file present)).withFile here content
  have isAfter : after = final := by
    simp only [putAll_append, doneEarly, putAll_cons, here.2.put_eq, bind, Except.bind] at done
    exact Except.ok.inj (done.symm.trans doneLate)
  rw [isAfter]
  refine readBytes_eq (stayLate name (here.withFile here content)).2.resolved ?_
  rw [same, lookup_withFile_self]
  intro file present isSame
  exact isLast file present (by simpa [String.ofList_inj] using isSame.symm)

/-- Files that can each be put below a path alone can be put there one after another.  Of the files
of one name, the last is read then. -/
theorem exists_putAll
    (disk : Disk)
    (root : Path)
    {files : List (List Char × ByteArray)}
    (areNames : ∀ file ∈ files, Path.IsName file.1)
    (writable : ∀ file ∈ files, ∃ after,
      disk.put (root.push ⟨String.ofList file.1⟩) file.2 = .ok after) :
    ∃ after, disk.putAll root files = .ok after ∧
      ∀ early name content late, files = early ++ (name, content) :: late →
        (∀ file ∈ late, file.1 ≠ name) →
        after.readBytes (root.push ⟨String.ofList name⟩) = .ok content := by
  have named : ∀ name ∈ files.map Prod.fst, Path.IsName name := by simpa using areNames
  have alone : ∀ name ∈ files.map Prod.fst, ∃ content after,
      disk.put (root.push ⟨String.ofList name⟩) content = .ok after := by
    simp only [List.forall_mem_map]
    exact fun file present => ⟨file.2, writable file present⟩
  obtain ⟨ready, base, isReady⟩ := disk.exists_ready root named alone
  have offers : ∀ file ∈ files, ready.Offers root base file.1 := fun file present =>
    ⟨areNames file present, (isReady file.1 (List.mem_map_of_mem present)).1⟩
  -- Without a file the directories are not made, and nothing is to be read.
  have begun : files = [] ∨ disk.putAll root files = ready.putAll root files := by
    cases files with
    | nil => exact .inl rfl
    | cons file files =>
        right
        rw [putAll_cons, putAll_cons, (isReady file.1 (by simp)).2]
  rcases begun with rfl | begun
  · exact ⟨disk, rfl, by simp⟩
  obtain ⟨after, done, -, -⟩ := exists_putAll_of_offers offers
  refine ⟨after, begun.trans done, ?_⟩
  rintro early name content late rfl isLast
  exact readBytes_of_putAll offers isLast done

end Disk

end Pictogram
