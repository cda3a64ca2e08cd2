import Pictogram.Text.Split

/-!
# Paths of files

A path is a text of segments between slashes; one that begins with a slash is
absolute.  Empty segments and single points do not count, except for a single
point that a relative path begins with.
-/

namespace Pictogram

/-- The path of a file or a directory. -/
structure Path where
  /-- The path as written. -/
  text : String
  deriving DecidableEq, Repr, Inhabited

namespace Path

/-- Whether the path begins at the root. -/
def isAbsolute (path : Path) : Bool := path.text.toList.head? = some '/'

/-- A path below another one.  An absolute path stands for itself. -/
def push (base part : Path) : Path :=
  if part.isAbsolute then part
  else
    let start := base.text.toList
    if start.isEmpty || start.getLast? = some '/' then ⟨base.text ++ part.text⟩
    else ⟨base.text ++ "/" ++ part.text⟩

/-- A segment, and whether it counts. -/
structure Segment where
  /-- The characters of the segment. -/
  name : List Char
  /-- Whether it counts. -/
  counts : Bool

/-- The segments after the root. -/
def segments (path : Path) : List Segment :=
  let characters := path.text.toList
  let pieces := Text.split '/' (if path.isAbsolute then characters.drop 1 else characters)
  pieces.zipIdx.map fun (piece, index) =>
    ⟨piece, !piece.isEmpty && (piece ≠ ['.'] || (index = 0 && !path.isAbsolute))⟩

/-- Whether two paths are made of the same segments that count. -/
def same (first second : Path) : Bool :=
  let counted (path : Path) : List (List Char) :=
    (path.segments.filter Segment.counts).map Segment.name
  first.isAbsolute = second.isAbsolute && counted first = counted second

/-- The segments up to the last that counts, the last one first. -/
def countedFromEnd (path : Path) : List Segment :=
  path.segments.reverse.dropWhile fun segment => !segment.counts

/-- The name of what the path leads to, unless it goes up. -/
def fileName? (path : Path) : Option String :=
  match path.countedFromEnd with
  | [] => none
  | last :: _ =>
    if last.name = ['.'] || last.name = ['.', '.'] then none else some (String.ofList last.name)

/-- The path without its last segment. -/
def parent? (path : Path) : Option Path :=
  match path.countedFromEnd with
  | [] => none
  | _ :: before =>
    let kept := before.dropWhile fun segment => !segment.counts
    let body := Text.join '/' (kept.reverse.map Segment.name)
    some ⟨String.ofList (if path.isAbsolute then '/' :: body else body)⟩

/-- The path with another file name in the place of its own. -/
def withFileName (path : Path) (name : String) : Path :=
  match path.fileName? with
  | none => path.push ⟨name⟩
  | some _ => (path.parent?.getD path).push ⟨name⟩

/-- The file name up to its last point, unless it begins there. -/
def stem? (path : Path) : Option String :=
  path.fileName?.map fun name =>
    let pieces := Text.split '.' name.toList
    match pieces.dropLast with
    | [] | [[]] => name
    | before => String.ofList (Text.join '.' before)

end Path

end Pictogram
