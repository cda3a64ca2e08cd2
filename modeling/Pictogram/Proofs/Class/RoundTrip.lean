import Pictogram.Proofs.Class.Built
import Pictogram.Proofs.Class.Layout
import Mathlib.Data.List.Forall2

/-!
# Classes are read back

What is written of a class is read back by the layout: constants and the entries
that they take, attributes with those nested in them, methods, and the class as
a whole.  Only a text that is too long keeps a class from being written.
-/

namespace Pictogram
namespace Class

namespace Constant

/-- A constant is a text that is too long to be written. -/
def Oversized : Constant → Prop
  | .text content => 65535 < (EncodedText.encode content).length
  | _ => False

/-- A text of at most 65535 bytes is written behind its length. -/
theorem bytes_text
    {content : String}
    (short : (EncodedText.encode content).length ≤ 65535) :
    (Constant.text content).bytes =
      .ok (1 :: (Bytes.unsigned 2 (EncodedText.encode content).length ++
        EncodedText.encode content)) := by
  have encoded : EncodedText.bytes content = .ok (EncodedText.encode content) := if_pos short
  rw [bytes, body, encoded]
  rfl

/-- A longer text is refused, with its length. -/
theorem bytes_text_oversized
    {content : String}
    (long : 65535 < (EncodedText.encode content).length) :
    (Constant.text content).bytes = .error (.textTooLong (EncodedText.encode content).length) := by
  have refused : EncodedText.bytes content =
      .error (.textTooLong (EncodedText.encode content).length) := if_neg (Nat.not_le.mpr long)
  rw [bytes, body, refused]
  rfl

/-- A constant is written, unless it is too long. -/
theorem bytes_cases (constant : Constant) :
    (¬constant.Oversized ∧ ∃ bytes, constant.bytes = .ok bytes) ∨
      (constant.Oversized ∧ ∃ error, constant.bytes = .error error) := by
  cases constant with
  | text content =>
      rcases Nat.lt_or_ge 65535 (EncodedText.encode content).length with long | short
      · exact .inr ⟨long, _, bytes_text_oversized long⟩
      · exact .inl ⟨Nat.not_lt.mpr short, _, bytes_text short⟩
  | _ => exact .inl ⟨id, _, rfl⟩

/-- Constants are written one by one, unless one of them is too long. -/
theorem mapM_bytes_cases (constants : List Constant) :
    ((∀ constant ∈ constants, ¬constant.Oversized) ∧
      ∃ parts, constants.mapM bytes = .ok parts ∧
        constants.Forall₂ (fun constant part => constant.bytes = .ok part) parts) ∨
      ((∃ constant ∈ constants, constant.Oversized) ∧
        ∃ error, constants.mapM bytes = .error error) := by
  induction constants with
  | nil => exact .inl ⟨by simp, [], rfl, .nil⟩
  | cons first rest inductionHypothesis =>
      rw [List.mapM_cons]
      rcases first.bytes_cases with ⟨short, part, written⟩ | ⟨long, error, refused⟩
      · rw [written]
        rcases inductionHypothesis with ⟨allShort, parts, allWritten, each⟩ |
          ⟨⟨constant, present, long⟩, error, refused⟩
        · rw [allWritten]
          exact .inl ⟨List.forall_mem_cons.mpr ⟨short, allShort⟩, part :: parts, rfl,
            .cons written each⟩
        · rw [refused]
          exact .inr ⟨⟨constant, List.mem_cons_of_mem _ present, long⟩, error, rfl⟩
      · rw [refused]
        exact .inr ⟨⟨first, List.mem_cons_self, long⟩, error, rfl⟩

end Constant

namespace Reads

/-- The bytes of a text are read back as the text. -/
theorem text (content : String) :
    Reader.text.whole? (EncodedText.encode content) = some content := by
  simp [Reader.whole?, Reader.text, EncodedText.decode?_encode]

/-- A constant that can be written is read back. -/
theorem constant
    {constant : Constant}
    {bytes : List UInt8}
    (written : constant.bytes = .ok bytes) :
    Reads Reader.constant bytes constant := by
  cases constant with
  | text content =>
      rcases Nat.lt_or_ge 65535 (EncodedText.encode content).length with long | short
      · rw [Constant.bytes_text_oversized long] at written
        cases written
      · obtain rfl := Except.ok.inj ((Constant.bytes_text short).symm.trans written)
        exact (byte 1).bind ((number 2 (Nat.lt_succ_of_le short)).bind
          ((within (text content)).finish Constant.text))
  | integer value =>
      obtain rfl := Except.ok.inj written
      exact (byte 3).bind ((int32 value).finish Constant.integer)
  | float bits =>
      obtain rfl := Except.ok.inj written
      exact (byte 4).bind ((bits32 bits).finish Constant.float)
  | long value =>
      obtain rfl := Except.ok.inj written
      exact (byte 5).bind ((int64 value).finish Constant.long)
  | double bits =>
      obtain rfl := Except.ok.inj written
      exact (byte 6).bind ((bits64 bits).finish Constant.double)
  | classRef name =>
      obtain rfl := Except.ok.inj written
      exact (byte 7).bind ((word name).finish Constant.classRef)
  | stringRef text =>
      obtain rfl := Except.ok.inj written
      exact (byte 8).bind ((word text).finish Constant.stringRef)
  | fieldRef owner signature =>
      obtain rfl := Except.ok.inj written
      exact (byte 9).bind ((word owner).bind ((word signature).finish (Constant.fieldRef owner)))
  | methodRef owner signature =>
      obtain rfl := Except.ok.inj written
      exact (byte 10).bind ((word owner).bind ((word signature).finish (Constant.methodRef owner)))
  | interfaceMethodRef owner signature =>
      obtain rfl := Except.ok.inj written
      exact (byte 11).bind
        ((word owner).bind ((word signature).finish (Constant.interfaceMethodRef owner)))
  | nameAndType name descriptor =>
      obtain rfl := Except.ok.inj written
      exact (byte 12).bind
        ((word name).bind ((word descriptor).finish (Constant.nameAndType name)))

/-- The entries of constants are read back from the bytes of the constants. -/
theorem entries
    {constants : List Constant}
    {parts : List (List UInt8)}
    (each : constants.Forall₂ (fun constant part => constant.bytes = .ok part) parts) :
    Reads (Reader.entries (constants.flatMap Constant.entries).length) parts.flatten
      (constants.flatMap Constant.entries) := by
  induction each with
  | nil => exact .pure []
  | @cons first part rest parts written _ inductionHypothesis =>
      rw [List.flatMap_cons, List.flatten_cons, Constant.entries, List.cons_append,
        List.length_cons, Reader.entries]
      refine (Reads.constant written).bind ?_
      cases first.isWide with
      | false => exact inductionHypothesis.finish (some first :: ·)
      | true => exact inductionHypothesis.finish (some first :: none :: ·)

end Reads

/-- The index of an attribute's name. -/
def Attribute.name : Attribute → UInt16
  | .code name .. => name
  | .sourceFile name _ => name

/-- The bytes of an attribute behind its name and its length. -/
def Attribute.body : Attribute → List UInt8
  | .code _ maxStack maxLocals instructions attributes =>
    Bytes.word maxStack ++ Bytes.word maxLocals ++ Bytes.unsigned 4 instructions.length ++
      instructions ++ Bytes.unsigned 2 0 ++ countBytes attributes ++ attributeBytes attributes
  | .sourceFile _ file => Bytes.word file

/-- Besides its instructions and the nested attributes, the body of a method has 12 bytes. -/
theorem Attribute.length_body_code
    (name maxStack maxLocals : UInt16)
    (instructions : List UInt8)
    (attributes : List Attribute) :
    (Attribute.code name maxStack maxLocals instructions attributes).body.length =
      12 + instructions.length + (attributeBytes attributes).length := by
  simp only [body, countBytes, Bytes.word, List.length_append, Bytes.length_unsigned]
  omega

/-- The length that an attribute states is the length of what follows. -/
theorem Attribute.bytes_eq (self : Attribute) :
    self.bytes = Bytes.word self.name ++ Bytes.unsigned 4 self.body.length ++ self.body := by
  cases self with
  | code name maxStack maxLocals instructions attributes =>
      rw [length_body_code]
      simp only [Attribute.bytes, Attribute.name, body]
  | sourceFile => simp only [Attribute.bytes, name, body, Bytes.word, Bytes.length_unsigned]

/-- The name of an attribute tells its kind, and what it counts can be counted. -/
inductive Attribute.Fits (pool : Pool) : Attribute → Prop
  | code
      {name maxStack maxLocals : UInt16}
      {code : List UInt8}
      {attributes : List Attribute} :
      pool.text? name = some "Code" →
      (Attribute.code name maxStack maxLocals code attributes).body.length < 2 ^ 32 →
      attributes.length < 65536 →
      (∀ inner ∈ attributes, Fits pool inner) →
      Fits pool (.code name maxStack maxLocals code attributes)
  | sourceFile {name file : UInt16} :
      pool.text? name = some "SourceFile" →
      Fits pool (.sourceFile name file)

/-- Attributes are written one behind the other. -/
theorem attributeBytes_eq_flatMap (attributes : List Attribute) :
    attributeBytes attributes = attributes.flatMap Attribute.bytes := by
  induction attributes with
  | nil => simp [attributeBytes]
  | cons first rest inductionHypothesis => simp [attributeBytes, inductionHypothesis]

/-- An attribute is no longer than the row it stands in. -/
theorem length_le_attributeBytes
    {attributes : List Attribute}
    {inner : Attribute}
    (present : inner ∈ attributes) :
    inner.bytes.length ≤ (attributeBytes attributes).length := by
  induction attributes with
  | nil => cases present
  | cons first rest inductionHypothesis =>
      rw [attributeBytes, List.length_append]
      rcases List.mem_cons.mp present with rfl | later
      · omega
      · have := inductionHypothesis later
        omega

namespace Reads

variable {pool : Pool}

theorem absent : Reads Reader.absent (Bytes.unsigned 2 0) () := literal [0, 0]

/-- An attribute is read back, if those nested in it are. -/
theorem attributeUpTo
    {depth : Nat}
    {written : Attribute}
    (small : written.body.length < 2 ^ 32)
    (reads : Reads (Reader.attributeBody written.name (pool.text? written.name)
      (Reader.counted (Reader.attributeUpTo pool.text? depth))) written.body written) :
    Reads (Reader.attributeUpTo pool.text? (depth + 1)) written.bytes written := by
  rw [Attribute.bytes_eq, List.append_assoc]
  exact (word written.name).bind ((number 4 small).bind (within reads.whole?))

end Reads

/-- The name and the length of an attribute take bytes besides its body. -/
theorem Attribute.length_body_lt (self : Attribute) : self.body.length < self.bytes.length := by
  rw [bytes_eq, List.length_append, List.length_append, Bytes.length_unsigned]
  omega

/-- Attributes that are each read back are read back in a row. -/
theorem Reads.attributes
    {pool : Pool}
    {depth : Nat}
    {attributes : List Attribute}
    (few : attributes.length < 65536)
    (each : ∀ inner ∈ attributes,
      Reads (Reader.attributeUpTo pool.text? depth) inner.bytes inner) :
    Reads (Reader.counted (Reader.attributeUpTo pool.text? depth))
      (countBytes attributes ++ attributeBytes attributes) attributes := by
  rw [attributeBytes_eq_flatMap]
  exact .counted few (.repeated each)

open Reads in
/-- An attribute is read back, if it is read deep enough. -/
theorem Attribute.Fits.reads
    {pool : Pool}
    {written : Attribute}
    (fits : written.Fits pool) :
    ∀ depth, written.body.length < depth →
      Reads (Reader.attributeUpTo pool.text? depth) written.bytes written := by
  induction fits with
  | @code name maxStack maxLocals code attributes named small few _ inductionHypothesis =>
      intro depth enough
      cases depth with
      | zero => cases enough
      | succ depth =>
          have whole := length_body_code name maxStack maxLocals code attributes
          have codeSmall : code.length < Nat.pow 256 4 := by
            rw [Nat.pow_eq]
            omega
          -- The attributes in the body are shorter than it, so they are read deep enough.
          have nested := Reads.attributes few fun inner present =>
            inductionHypothesis inner present depth (by
              have := inner.length_body_lt
              have := length_le_attributeBytes present
              omega)
          refine Reads.attributeUpTo small ?_
          rw [Attribute.name, named]
          simp only [body, List.append_assoc]
          exact (word maxStack).bind ((word maxLocals).bind ((number 4 codeSmall).bind
            ((take code).bind (absent.bind
              (nested.finish (Attribute.code name maxStack maxLocals code))))))
  | @sourceFile name file named =>
      intro depth enough
      cases depth with
      | zero => cases enough
      | succ depth =>
          refine Reads.attributeUpTo (by simp [body, Bytes.word]) ?_
          rw [Attribute.name, named]
          exact (word file).finish (Attribute.sourceFile name)

/-- Attributes that can be counted, and that fit one by one. -/
structure AttributesFit (pool : Pool) (attributes : List Attribute) : Prop where
  /-- Their number can be written. -/
  few : attributes.length < 65536
  /-- Each of them fits. -/
  each : ∀ inner ∈ attributes, inner.Fits pool

/-- Attributes that fit are read back, behind their number. -/
theorem AttributesFit.reads
    {pool : Pool}
    {attributes : List Attribute}
    (fit : AttributesFit pool attributes) :
    Reads (Reader.attributes pool.text?) (countBytes attributes ++ attributeBytes attributes)
      attributes := by
  intro rest
  refine Reads.attributes fit.few (fun inner present => (fit.each inner present).reads _ ?_) rest
  have := inner.length_body_lt
  have := length_le_attributeBytes present
  simp only [List.length_append]
  omega

/-- A method whose attributes fit is read back. -/
theorem Reads.method
    {pool : Pool}
    {method : Method}
    (fit : AttributesFit pool method.attributes) :
    Reads (Reader.method pool.text?) method.bytes method := by
  simp only [Method.bytes, List.append_assoc]
  exact (word method.access).bind ((word method.name).bind ((word method.descriptor).bind
    (fit.reads.finish (Method.mk method.access method.name method.descriptor))))

/-- The texts of a pool are found among its entries. -/
theorem textAt?_entries (pool : Pool) :
    Reader.textAt? pool.entries.toList = pool.text? := by
  funext index
  unfold Reader.textAt? Pool.text? Pool.get?
  cases index.toNat with
  | zero => rfl
  | succ place =>
      simp only [Array.getElem?_toList]
      rcases pool.entries[place]? with _ | _ | constant
      · rfl
      · rfl
      · cases constant <;> rfl

/-- A pool is written, unless one of its texts is too long. -/
theorem Pool.bytes_cases (pool : Pool) :
    ((∀ constant ∈ pool.constants, ¬constant.Oversized) ∧
      ∃ parts, pool.bytes = .ok (Bytes.word pool.count ++ parts.flatten) ∧
        pool.constants.Forall₂ (fun constant part => constant.bytes = .ok part) parts) ∨
      ((∃ constant ∈ pool.constants, constant.Oversized) ∧
        ∃ error, pool.bytes = .error error) := by
  unfold Pool.bytes
  rcases Constant.mapM_bytes_cases pool.constants with ⟨short, parts, written, each⟩ |
    ⟨long, error, refused⟩
  · rw [written]
    exact .inl ⟨short, parts, rfl, each⟩
  · rw [refused]
    exact .inr ⟨long, error, rfl⟩

/-- Only texts can be too long, and every one stands at an index. -/
theorem Pool.exists_oversized_iff
    {pool : Pool}
    (aligned : pool.Aligned) :
    (∃ constant ∈ pool.constants, constant.Oversized) ↔
      ∃ index content, pool.get? index = some (.text content) ∧
        65535 < (EncodedText.encode content).length := by
  constructor
  · rintro ⟨constant, present, long⟩
    obtain ⟨index, stands⟩ := (mem_constants_iff aligned).mp present
    cases constant with
    | text content => exact ⟨index, content, stands, long⟩
    | _ => exact long.elim
  · rintro ⟨index, content, stands, long⟩
    exact ⟨.text content, (mem_constants_iff aligned).mpr ⟨index, stands⟩, long⟩

/-- The entries of an aligned pool are read back from the bytes of its constants. -/
theorem Reads.pool
    {pool : Pool}
    {parts : List (List UInt8)}
    (aligned : pool.Aligned)
    (each : pool.constants.Forall₂ (fun constant part => constant.bytes = .ok part) parts) :
    Reads Reader.pool (Bytes.word pool.count ++ parts.flatten) pool.entries.toList := by
  have bound : pool.size < 65535 := aligned.size_lt
  have count : pool.count.toNat = pool.size + 1 :=
    UInt16.toNat_ofNat_of_lt' (by show _ < 65536; omega)
  have reads := Reads.entries each
  rw [← aligned.toList_entries, Array.length_toList] at reads
  rw [Bytes.word, count]
  exact (number 2 (by show _ < 65536; omega)).bind reads

namespace File

/-- What the bytes of a class have to tell. -/
def contents (file : File) : Contents where
  minorVersion := file.minorVersion
  majorVersion := file.majorVersion
  entries := file.pool.entries.toList
  access := file.access
  thisClass := file.thisClass
  superClass := file.superClass
  methods := file.methods
  attributes := file.attributes

/-- The pool has been made by additions, and all that a class counts can be counted. -/
structure WellFormed (file : File) : Prop where
  /-- The pool has been made by additions. -/
  built : file.pool.Built
  /-- The number of methods can be written. -/
  methods : file.methods.length < 65536
  /-- The attributes of each method fit. -/
  ofMethods : ∀ method ∈ file.methods, AttributesFit file.pool method.attributes
  /-- The attributes of the class fit. -/
  ofClass : AttributesFit file.pool file.attributes

/-- The bytes of a class, those of its pool being known. -/
def bytesWith (file : File) (pool : List UInt8) : List UInt8 :=
  magic ++ Bytes.word file.minorVersion ++ Bytes.word file.majorVersion ++ pool ++
    Bytes.word file.access ++ Bytes.word file.thisClass ++ Bytes.word file.superClass ++
    Bytes.unsigned 2 0 ++ Bytes.unsigned 2 0 ++
    countBytes file.methods ++ file.methods.flatMap Method.bytes ++
    countBytes file.attributes ++ attributeBytes file.attributes

open Reads in
/-- All that a well-formed class holds is read back, once its pool is. -/
theorem WellFormed.reads
    {file : File}
    {pool : List UInt8}
    (wellFormed : file.WellFormed)
    (poolReads : Reads Reader.pool pool file.pool.entries.toList) :
    Reads Reader.contents (file.bytesWith pool) file.contents := by
  have methods : Reads (Reader.counted (Reader.method file.pool.text?))
      (countBytes file.methods ++ file.methods.flatMap Method.bytes) file.methods :=
    counted wellFormed.methods
      (repeated fun one present => method (wellFormed.ofMethods one present))
  have attributes := wellFormed.ofClass.reads
  rw [← textAt?_entries] at methods attributes
  have reads : Reads Reader.contents _ file.contents :=
    (literal magic).bind ((word file.minorVersion).bind ((word file.majorVersion).bind
      (poolReads.bind ((word file.access).bind ((word file.thisClass).bind
        ((word file.superClass).bind (absent.bind (absent.bind
          (methods.bind (attributes.finish (Contents.mk file.minorVersion file.majorVersion
            file.pool.entries.toList file.access file.thisClass file.superClass
            file.methods)))))))))))
  simpa only [bytesWith, List.append_assoc] using reads

/-- A class is written unless one of its texts is too long, and what is written is read back as
the class, with nothing left over. -/
theorem bytes_lossless
    {file : File}
    (wellFormed : file.WellFormed) :
    ((∃ error, file.bytes = .error error) ↔
      ∃ index content, file.pool.get? index = some (.text content) ∧
        65535 < (EncodedText.encode content).length) ∧
    ∀ bytes, file.bytes = .ok bytes → Contents.read? bytes = some file.contents := by
  have aligned := wellFormed.built.aligned
  rw [← Pool.exists_oversized_iff aligned]
  unfold File.bytes
  rcases file.pool.bytes_cases with ⟨short, parts, written, each⟩ | ⟨long, error, refused⟩
  · rw [written]
    refine ⟨⟨?_, ?_⟩, ?_⟩
    · rintro ⟨error, refused⟩
      cases refused
    · rintro ⟨constant, present, long⟩
      exact absurd long (short constant present)
    · intro bytes done
      obtain rfl := Except.ok.inj done
      exact (wellFormed.reads (.pool aligned each)).whole?
  · rw [refused]
    refine ⟨⟨fun _ => long, fun _ => ⟨error, rfl⟩⟩, ?_⟩
    intro bytes done
    cases done

/-- A class with a wide constant, and with an attribute in an attribute. -/
def nested : File where
  minorVersion := 0
  majorVersion := 52
  pool := [.text "Code", .add (.long (-1)), .stringRef "SourceFile"].foldl Pool.after .empty
  access := 0x21
  thisClass := 1
  superClass := 1
  methods := [⟨9, 1, 4, [.code 1 2 1 [0xB1] [.code 1 0 0 [] []]]⟩]
  attributes := [.sourceFile 4 1]

theorem entries_nested :
    nested.pool.entries =
      #[some (.text "Code"), some (.long (-1)), none, some (.text "SourceFile"),
        some (.stringRef 4)] := by
  simp [nested, Pool.after, Pool.left, Pool.Operation.run, Pool.text, Pool.stringRef, Pool.add,
    Pool.append, Pool.empty, Constant.isWide, Constant.width, Pool.indexBound, bind, EStateM.bind]

theorem wellFormed_nested : nested.WellFormed where
  built := ⟨_, rfl⟩
  methods := by decide
  ofMethods := by
    have named : nested.pool.text? 1 = some "Code" := by
      simp [Pool.text?, Pool.get?, entries_nested]
    have inner : (Attribute.code 1 0 0 [] []).Fits nested.pool :=
      .code named (by decide) (by decide) (by simp)
    have outer : (Attribute.code 1 2 1 [0xB1] [.code 1 0 0 [] []]).Fits nested.pool :=
      .code named (by decide) (by decide) (by simpa using inner)
    intro method present
    obtain rfl := List.mem_singleton.mp present
    exact ⟨by decide, by simpa using outer⟩
  ofClass := by
    have named : nested.pool.text? 4 = some "SourceFile" := by
      simp [Pool.text?, Pool.get?, entries_nested]
    refine ⟨by decide, ?_⟩
    intro inner present
    obtain rfl := List.mem_singleton.mp present
    exact .sourceFile named

/-- A class with a wide constant and with one body inside another is read back. -/
theorem bytes_lossless_nested :
    nested.WellFormed ∧
      ∃ bytes, nested.bytes = .ok bytes ∧ Contents.read? bytes = some nested.contents := by
  obtain ⟨failing, readBack⟩ := bytes_lossless wellFormed_nested
  refine ⟨wellFormed_nested, ?_⟩
  cases done : nested.bytes with
  | ok bytes => exact ⟨bytes, rfl, readBack bytes done⟩
  | error error =>
      obtain ⟨index, content, stands, long⟩ := failing.mp ⟨error, done⟩
      have present : Constant.text content ∈ nested.pool.constants :=
        (Pool.mem_constants_iff wellFormed_nested.built.aligned).mpr ⟨index, stands⟩
      have either : content = "Code" ∨ content = "SourceFile" := by
        simpa [Pool.constants, entries_nested] using present
      rcases either with rfl | rfl
      · exact absurd long (by decide)
      · exact absurd long (by decide)

end File
end Class
end Pictogram
