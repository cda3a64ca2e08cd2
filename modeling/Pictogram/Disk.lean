import Pictogram.Failure
import Pictogram.Path

/-!
# Files in memory

A disk holds files and directories at places below a root.  A place is the list
of the names that lead to it.  Relative paths start at the working directory.
-/

namespace Pictogram

/-- Where a file or a directory is. -/
abbrev Place := List String

/-- Files and directories. -/
structure Disk where
  /-- The files with their bytes. -/
  files : List (Place × ByteArray)
  /-- The directories besides those that hold a file. -/
  directories : List Place
  /-- Where relative paths start. -/
  working : Place

namespace Disk

/-- What is at a place. -/
inductive Entry where
  | file (content : ByteArray)
  | directory
  | nothing

/-- Whether something is below a place, or a directory at it. -/
def holds (disk : Disk) (place : Place) : Bool :=
  place.isEmpty || disk.directories.any place.isPrefixOf ||
    disk.files.any fun (other, _) => place.isPrefixOf other && other ≠ place

/-- What is at a place. -/
def entry (disk : Disk) (place : Place) : Entry :=
  match disk.files.lookup place with
  | some content => .file content
  | none => if disk.holds place then .directory else .nothing

/-- The largest number of bytes of a name. -/
def nameLimit : Nat := 255

/-- The number of bytes that a path stays below. -/
def pathLimit : Nat := 4096

/-- The place below a directory. -/
def step (disk : Disk) (place : Place) (name : String) : Except FileFault Place :=
  match disk.entry place with
  | .nothing => .error .notFound
  | .file _ => .error .notDirectory
  | .directory =>
    if name = ".." then .ok place.dropLast
    else if name.utf8ByteSize ≤ nameLimit then .ok (place ++ [name])
    else .error .nameTooLong

/-- The place that a path leads to, whether or not something is there. -/
def resolve (disk : Disk) (path : Path) : Except FileFault Place := do
  if path.text.toList.contains '\x00' then throw .zeroInPath
  if path.text.isEmpty then throw .notFound
  unless path.text.utf8ByteSize < pathLimit do throw .nameTooLong
  let names := path.segments.filterMap fun segment =>
    if segment.counts && segment.name ≠ ['.'] then some (String.ofList segment.name) else none
  let place ← names.foldlM disk.step (if path.isAbsolute then [] else disk.working)
  -- A path that ends in a slash leads to a directory.
  match path.segments.getLast?.map (·.counts), disk.entry place with
  | some false, .file _ => throw .notDirectory
  | _, _ => return place

/-- What a path leads to. -/
def find (disk : Disk) (path : Path) : Except FileFault Entry := do
  let place ← disk.resolve path
  return disk.entry place

/-- The bytes of a file. -/
def readBytes (disk : Disk) (path : Path) : Except FileFault ByteArray := do
  match ← disk.find path with
  | .file content => return content
  | .directory => throw .isDirectory
  | .nothing => throw .notFound

/-- The text of a file. -/
def readText (disk : Disk) (path : Path) : Except FileFault String := do
  match String.fromUTF8? (← disk.readBytes path) with
  | some text => return text
  | none => throw .notText

/-- Whether a path leads to a file. -/
def isFile (disk : Disk) (path : Path) : Bool :=
  match disk.find path with
  | .ok (.file _) => true
  | _ => false

/-- Whether a path leads to a directory. -/
def isDirectory (disk : Disk) (path : Path) : Bool :=
  match disk.find path with
  | .ok .directory => true
  | _ => false

/-- The disk with a new directory. -/
def makeDirectory (disk : Disk) (path : Path) : Except FileFault Disk := do
  let place ← disk.resolve path
  match disk.entry place with
  | .nothing => return { disk with directories := place :: disk.directories }
  | _ => throw .alreadyExists

/-- The disk with a directory, which may be there already. -/
def ensureDirectory (disk : Disk) (path : Path) : Except FileFault Disk :=
  match disk.makeDirectory path with
  | .ok disk => .ok disk
  | .error fault => if disk.isDirectory path then .ok disk else .error fault

/-- The disk with a directory and those that lead to it, of which at most
`depth` are missing. -/
def makeDirectoriesWithin (disk : Disk) (path : Path) : (depth : Nat) → Except FileFault Disk
  | 0 => .error .notFound
  | depth + 1 =>
    if path.text.isEmpty then .ok disk
    else match disk.ensureDirectory path, path.parent? with
      | .error .notFound, some parent => do
        let disk ← disk.makeDirectoriesWithin parent depth
        disk.ensureDirectory path
      | result, _ => result

/-- The disk with a directory and those that lead to it. -/
def makeDirectories (disk : Disk) (path : Path) : Except FileFault Disk :=
  disk.makeDirectoriesWithin path (path.text.length + 2)

/-- The disk with a file. -/
def writeBytes (disk : Disk) (path : Path) (content : ByteArray) : Except FileFault Disk := do
  let place ← disk.resolve path
  match disk.entry place with
  | .directory => throw .isDirectory
  | _ => return { disk with files := (place, content) :: disk.files.filter (·.1 ≠ place) }

/-- The files below a place that another disk does not have as they are. -/
def changes (before after : Disk) (below : Place) : List (Place × ByteArray) :=
  after.files.filterMap fun (place, content) =>
    if below.isPrefixOf place && (before.files.lookup place).all (·.data ≠ content.data) then
      some (place.drop below.length, content)
    else none

end Disk

end Pictogram
