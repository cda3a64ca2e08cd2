import Pictogram.Proofs.Machine.Bytes

/-!
# Reading bytes

A reader takes what it needs off the front of bytes, or fails.  That it reads
bytes as a value is said for whatever follows them, so that what is written in
a row is read in a row.
-/

namespace Pictogram
namespace Class

/-- A value from the front of bytes, and what is left of them. -/
abbrev Reader := StateT (List UInt8) Option

namespace Reader

variable {α β : Type}

/-- The next byte. -/
def byte : Reader UInt8
  | [] => none
  | first :: rest => some (first, rest)

/-- The next bytes, as many as are said. -/
def take (count : Nat) : Reader (List UInt8) := fun bytes =>
  if count ≤ bytes.length then some (bytes.take count, bytes.drop count) else none

/-- A natural number of some bytes. -/
def number (width : Nat) : Reader Nat := do
  return Bytes.toNat (← take width)

/-- An integer of some bytes. -/
def integer (width : Nat) : Reader Int := do
  return Bytes.toInt (← take width)

/-- A natural number of two bytes. -/
def word : Reader UInt16 := do
  return UInt16.ofNat (← number 2)

/-- An integer of four bytes. -/
def int32 : Reader Int32 := do
  return Int32.ofInt (← integer 4)

/-- An integer of eight bytes. -/
def int64 : Reader Int64 := do
  return Int64.ofInt (← integer 8)

/-- The bits of four bytes. -/
def bits32 : Reader UInt32 := do
  return UInt32.ofNat (← number 4)

/-- The bits of eight bytes. -/
def bits64 : Reader UInt64 := do
  return UInt64.ofNat (← number 8)

/-- Bytes that have to be as they are said. -/
def literal (expected : List UInt8) : Reader Unit := do
  if (← take expected.length) = expected then pure () else failure

/-- What a reader makes of bytes, if it leaves none of them. -/
def whole? (reader : Reader α) (bytes : List UInt8) : Option α :=
  match reader bytes with
  | some (value, []) => some value
  | _ => none

/-- What a reader makes of the next bytes, all of which it has to take. -/
def within (count : Nat) (reader : Reader α) : Reader α := do
  match whole? reader (← take count) with
  | some value => pure value
  | none => failure

/-- Some values in a row. -/
def repeated (reader : Reader α) : Nat → Reader (List α)
  | 0 => pure []
  | count + 1 => do
    let first ← reader
    return first :: (← repeated reader count)

/-- Values in a row, their number first. -/
def counted (reader : Reader α) : Reader (List α) := do
  repeated reader (← number 2)

end Reader

/-- A reader takes the bytes as a value, whatever follows them. -/
def Reads {α : Type} (reader : Reader α) (bytes : List UInt8) (value : α) : Prop :=
  ∀ rest, reader (bytes ++ rest) = some (value, rest)

namespace Reads

variable {α β : Type} {bytes more : List UInt8}

theorem pure (value : α) : Reads (Pure.pure value) [] value := fun _ => rfl

/-- Readers one after the other read what was written one after the other. -/
theorem bind
    {first : Reader α}
    {next : α → Reader β}
    {value : α}
    {result : β}
    (firstReads : Reads first bytes value)
    (nextReads : Reads (next value) more result) :
    Reads (first >>= next) (bytes ++ more) result := by
  intro rest
  show (first (bytes ++ more ++ rest)).bind (fun read => next read.1 read.2) = _
  rw [List.append_assoc, firstReads]
  exact nextReads rest

/-- The last step of a reader gives its result. -/
theorem finish
    {first : Reader α}
    {value : α}
    (firstReads : Reads first bytes value)
    (result : α → β) :
    Reads (first >>= fun read => Pure.pure (result read)) bytes (result value) := by
  intro rest
  show (first (bytes ++ rest)).bind (fun read => some (result read.1, read.2)) = _
  rw [firstReads, Option.bind_some]

/-- What is read from the front of some bytes is read from these bytes alone. -/
theorem whole?
    {reader : Reader α}
    {value : α}
    (reads : Reads reader bytes value) :
    Reader.whole? reader bytes = some value := by
  have alone := reads []
  rw [List.append_nil] at alone
  rw [Reader.whole?, alone]

theorem byte (first : UInt8) : Reads Reader.byte [first] first := fun _ => rfl

theorem take (bytes : List UInt8) : Reads (Reader.take bytes.length) bytes bytes := by
  intro rest
  rw [Reader.take, if_pos (by simp), List.take_left, List.drop_left]

/-- A number that fits in its width is read back. -/
theorem number
    (width : Nat)
    {value : Nat}
    (small : value < Nat.pow 256 width) :
    Reads (Reader.number width) (Bytes.unsigned width value) value := by
  have reads := (take (Bytes.unsigned width value)).finish Bytes.toNat
  rwa [Bytes.length_unsigned, Bytes.toNat_unsigned, Nat.mod_eq_of_lt small] at reads

/-- A signed number that fits in its width is read back. -/
theorem integer
    (width : Nat)
    {value : Int}
    (least : -(Nat.pow 256 width / 2 : Nat) ≤ value)
    (greatest : value < ((Nat.pow 256 width + 1) / 2 : Nat)) :
    Reads (Reader.integer width) (Bytes.signed width value) value := by
  have reads := (take (Bytes.signed width value)).finish Bytes.toInt
  rwa [Bytes.length_signed, Bytes.toInt_signed width value least greatest] at reads

theorem word (value : UInt16) : Reads Reader.word (Bytes.word value) value := by
  have reads := (number 2 value.toNat_lt).finish UInt16.ofNat
  rwa [UInt16.ofNat_toNat] at reads

theorem int32 (value : Int32) : Reads Reader.int32 (Bytes.signed 4 value.toInt) value := by
  have reads := (integer 4 value.le_toInt value.toInt_lt).finish Int32.ofInt
  rwa [Int32.ofInt_toInt] at reads

theorem int64 (value : Int64) : Reads Reader.int64 (Bytes.signed 8 value.toInt) value := by
  have reads := (integer 8 value.le_toInt value.toInt_lt).finish Int64.ofInt
  rwa [Int64.ofInt_toInt] at reads

theorem bits32 (bits : UInt32) : Reads Reader.bits32 (Bytes.unsigned 4 bits.toNat) bits := by
  have reads := (number 4 bits.toNat_lt).finish UInt32.ofNat
  rwa [UInt32.ofNat_toNat] at reads

theorem bits64 (bits : UInt64) : Reads Reader.bits64 (Bytes.unsigned 8 bits.toNat) bits := by
  have reads := (number 8 bits.toNat_lt).finish UInt64.ofNat
  rwa [UInt64.ofNat_toNat] at reads

theorem literal (expected : List UInt8) : Reads (Reader.literal expected) expected () := by
  intro rest
  show (Reader.take expected.length (expected ++ rest)).bind
    (fun read => (if read.1 = expected then Pure.pure () else failure : Reader Unit) read.2) = _
  rw [take, Option.bind_some, if_pos rfl]
  rfl

/-- A reader that takes all of some bytes reads them in the midst of others. -/
theorem within
    {reader : Reader α}
    {value : α}
    (reads : Reader.whole? reader bytes = some value) :
    Reads (Reader.within bytes.length reader) bytes value := by
  intro rest
  show (Reader.take bytes.length (bytes ++ rest)).bind (fun read =>
    (match Reader.whole? reader read.1 with
      | some value => Pure.pure value
      | none => failure : Reader α) read.2) = _
  rw [take, Option.bind_some, reads]
  rfl

/-- Values that are each read back are read back in a row. -/
theorem repeated
    {reader : Reader α}
    {written : α → List UInt8}
    {values : List α}
    (each : ∀ value ∈ values, Reads reader (written value) value) :
    Reads (Reader.repeated reader values.length) (values.flatMap written) values := by
  induction values with
  | nil => exact .pure []
  | cons first rest inductionHypothesis =>
      obtain ⟨firstReads, restRead⟩ := List.forall_mem_cons.mp each
      exact firstReads.bind ((inductionHypothesis restRead).finish (first :: ·))

/-- So are values behind their number, if it has 16 bits. -/
theorem counted
    {reader : Reader α}
    {values : List α}
    (few : values.length < 65536)
    (reads : Reads (Reader.repeated reader values.length) bytes values) :
    Reads (Reader.counted reader) (Bytes.unsigned 2 values.length ++ bytes) values :=
  (number 2 few).bind reads

end Reads
end Class
end Pictogram
