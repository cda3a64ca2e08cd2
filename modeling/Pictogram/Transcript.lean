/-!
# Transcripts

A transcript keeps what a program has written: lines of output and lines that
report errors.  A `Shelf` holds several of them, each under any number of
handles; what is written through one handle is read through every other handle
of the same transcript.
-/

namespace Pictogram

/-- The lines that a program has written. -/
structure Transcript where
  /-- The lines of output. -/
  lines : Array String
  /-- The lines that report errors. -/
  errors : Array String
  deriving Repr, Inhabited

namespace Transcript

/-- Nothing written. -/
def empty : Transcript := ⟨#[], #[]⟩

/-- One more line of output. -/
def line (transcript : Transcript) (text : String) : Transcript :=
  { transcript with lines := transcript.lines.push text }

/-- One more line that reports an error. -/
def error (transcript : Transcript) (text : String) : Transcript :=
  { transcript with errors := transcript.errors.push text }

/-- Transcripts under handles. -/
structure Shelf where
  /-- The transcripts. -/
  transcripts : Array Transcript
  /-- The place of each handle's transcript. -/
  places : Array Nat

namespace Shelf

/-- One empty transcript, under handle 0. -/
def single : Shelf := ⟨#[.empty], #[0]⟩

/-- The transcript under a handle. -/
def read? (shelf : Shelf) (handle : Nat) : Option Transcript := do
  shelf.transcripts[← shelf.places[handle]?]?

/-- The shelf after a change of the transcript under a handle. -/
def change (shelf : Shelf) (handle : Nat) (f : Transcript → Transcript) : Shelf :=
  match shelf.places[handle]? with
  | some place => { shelf with transcripts := shelf.transcripts.modify place f }
  | none => shelf

/-- A further handle, to the transcript under a handle. -/
def share (shelf : Shelf) (handle : Nat) : Shelf :=
  match shelf.places[handle]? with
  | some place => { shelf with places := shelf.places.push place }
  | none => shelf

/-- A further handle, to an empty transcript of its own. -/
def add (shelf : Shelf) : Shelf where
  transcripts := shelf.transcripts.push .empty
  places := shelf.places.push shelf.transcripts.size

/-- Empties the transcript under a handle. -/
def clear (shelf : Shelf) (handle : Nat) : Shelf :=
  shelf.change handle fun _ => .empty

end Shelf
end Transcript
end Pictogram
