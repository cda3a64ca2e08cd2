import Pictogram.Parse.Number
import Pictogram.Proofs.Number.Reading
import Pictogram.Proofs.Token.Written

/-!
# The value of a scanned number

The text of a number token is a digit, and then any digits and points.  However the
points lie, the part of the text that is read is the longest decimal that it begins
with.  So each number token of a source has a value.
-/

namespace Pictogram

/-! ## The texts of number tokens -/

/-- Each token but the end of the input is spelled by some clusters. -/
theorem Scan.Covers.spells
    {offset : Nat}
    {run : List Cluster}
    {tokens : List Token}
    {token : Token}
    (covers : Covers offset run tokens)
    (present : token ∈ tokens)
    (notEnd : token.kind ≠ .endOfInput) :
    ∃ ends spelling, Spells ends token.kind spelling := by
  induction covers with
  | last =>
      obtain rfl := List.mem_singleton.mp present
      exact absurd rfl notEnd
  | next _ _ spells _ inductionHypothesis =>
      rcases List.mem_cons.mp present with rfl | later
      · exact ⟨_, _, spells⟩
      · exact inductionHypothesis later

/-- The number tokens of all sources have the texts that can be written as numbers: a digit, and
then digits and points in any order. -/
theorem exists_numberToken_iff {text : String} :
    (∃ source, ∃ token ∈ tokenize source, token.kind = .number text) ↔
      (Token.Kind.number text).Writable := by
  constructor
  · rintro ⟨source, token, present, isNumber⟩
    obtain ⟨tokens, made, covers⟩ := Scan.tokensFrom_covers (.ofText source) #[]
    have inside : token ∈ tokens := by simpa [tokenize, made] using present
    obtain ⟨ends, spelling, spells⟩ := covers.spells inside (by simp [isNumber])
    rw [isNumber] at spells
    cases spells with
    | symbol isSymbol => cases isSymbol
    | @number first rest isDigit numerals =>
        exact ⟨first, rest, String.toList_ofList, isDigit, numerals⟩
  · intro writable
    have alone := Scan.tokenize_of_takenWhole (Scan.spells_written writable).takenWhole
    refine ⟨Token.Kind.written (.number text), ?_⟩
    rw [alone]
    exact ⟨_, List.mem_cons_self, rfl⟩

namespace Parse

open Number (IsDigits IsDecimal)

/-- How the points of a number token's text lie: there is none, or there are only digits between
the first one and the second, or the end of the text. -/
inductive Pointed : List Char → Prop
  | whole {digits : List Char} :
      IsDigits digits →
      Pointed digits
  | point {whole fraction rest : List Char} :
      IsDigits whole →
      (∀ character ∈ fraction, character.isDigit) →
      (∀ next ∈ rest.head?, next = '.') →
      Pointed (whole ++ '.' :: (fraction ++ rest))

/-- The digits of a number end at a point. -/
theorem head?_dropWhile_numerals
    {text : List Char}
    (numerals : ∀ character ∈ text, character.isDigit ∨ character = '.') :
    ∀ next ∈ (text.dropWhile Char.isDigit).head?, next = '.' := by
  intro next isNext
  have present : next ∈ text :=
    (List.dropWhile_suffix _).subset (List.mem_of_mem_head? isNext)
  have notDigit : ¬next.isDigit := by
    have stops := List.head?_dropWhile_not Char.isDigit text
    rw [Option.mem_def.mp isNext] at stops
    simpa using stops
  exact (numerals next present).resolve_left notDigit

/-- The text of a number token, cut at its first point and behind the digits that follow it. -/
theorem pointed_of_numerals
    {first : Char}
    {rest : List Char}
    (isDigit : first.isDigit)
    (numerals : ∀ character ∈ rest, character.isDigit ∨ character = '.') :
    Pointed (first :: rest) := by
  have isWhole : IsDigits (first :: rest.takeWhile Char.isDigit) := by
    refine ⟨by simp, List.forall_mem_cons.mpr ⟨isDigit, ?_⟩⟩
    intro character present
    exact List.mem_takeWhile_imp present
  have split := List.takeWhile_append_dropWhile (p := Char.isDigit) (l := rest)
  have stops := head?_dropWhile_numerals numerals
  -- Behind the first group of digits the text ends, or its first point stands.
  cases behind : rest.dropWhile Char.isDigit with
  | nil =>
      rw [behind, List.append_nil] at split
      rw [split] at isWhole
      exact .whole isWhole
  | cons next others =>
      rw [behind] at split stops
      obtain rfl := stops next rfl
      have later : ∀ character ∈ others, character.isDigit ∨ character = '.' := by
        intro character present
        refine numerals character ?_
        rw [← split]
        simp [present]
      have pointed : Pointed ((first :: rest.takeWhile Char.isDigit) ++
          '.' :: (others.takeWhile Char.isDigit ++ others.dropWhile Char.isDigit)) :=
        .point isWhole (fun _ => List.mem_takeWhile_imp) (head?_dropWhile_numerals later)
      rwa [List.takeWhile_append_dropWhile, List.cons_append, split] at pointed

/-! ## The part that is read -/

/-- Digits stand in front of every point. -/
theorem beforePoint_append
    {digits : List Char}
    (areDigits : ∀ character ∈ digits, character.isDigit)
    (points : Nat)
    (rest : List Char) :
    beforePoint points (digits ++ rest) = digits ++ beforePoint points rest := by
  induction digits with
  | nil => rfl
  | cons digit others inductionHypothesis =>
      obtain ⟨isDigit, othersDigits⟩ := List.forall_mem_cons.mp areDigits
      have notPoint : digit ≠ '.' := by
        rintro rfl
        cases isDigit
      simp [beforePoint, notPoint, inductionHypothesis othersDigits]

/-- When no more points may follow, nothing is kept of a text that goes on with one. -/
theorem beforePoint_zero
    {rest : List Char}
    (stops : ∀ next ∈ rest.head?, next = '.') :
    beforePoint 0 rest = [] := by
  cases rest with
  | nil => rfl
  | cons next others =>
      obtain rfl := stops next rfl
      rfl

/-- A text that ends in a digit has no final points. -/
theorem dropFinalPoints_digits
    (text : List Char)
    {digits : List Char}
    (isDigits : IsDigits digits) :
    dropFinalPoints (text ++ digits) = text ++ digits := by
  have self : (text ++ digits).rdropWhile (· = '.') = text ++ digits := by
    rw [List.rdropWhile_eq_self_iff]
    intro nonempty
    rw [List.getLast_append_of_ne_nil nonempty isDigits.nonempty, decide_eq_true_eq]
    intro isPoint
    have isDigit := isDigits.digits _ (List.getLast_mem isDigits.nonempty)
    rw [isPoint] at isDigit
    cases isDigit
  exact self

/-- A final point is dropped. -/
theorem dropFinalPoints_point (text : List Char) :
    dropFinalPoints (text ++ ['.']) = dropFinalPoints text :=
  List.rdropWhile_concat_pos (· = '.') text '.' rfl

/-- Digits without a point are the whole decimal. -/
theorem decimalPart_whole {digits : List Char} (isDigits : IsDigits digits) :
    decimalPart digits = digits := by
  have cut := beforePoint_append isDigits.digits 1 []
  rw [List.append_nil, beforePoint, List.append_nil] at cut
  rw [decimalPart, cut]
  exact dropFinalPoints_digits [] isDigits

section Point

variable {whole fraction rest : List Char}
variable (isWhole : IsDigits whole)
variable (areDigits : ∀ character ∈ fraction, character.isDigit)
variable (stops : ∀ next ∈ rest.head?, next = '.')

include isWhole areDigits stops

/-- With one point allowed, a decimal ends at its second point. -/
theorem beforePoint_point :
    beforePoint 1 (whole ++ '.' :: (fraction ++ rest)) = whole ++ '.' :: fraction := by
  have step : beforePoint 1 ('.' :: (fraction ++ rest)) = '.' :: beforePoint 0 (fraction ++ rest) :=
    rfl
  rw [beforePoint_append isWhole.digits, step, beforePoint_append areDigits,
    beforePoint_zero stops, List.append_nil]

/-- The point is read only if a digit follows it. -/
theorem decimalPart_point :
    decimalPart (whole ++ '.' :: (fraction ++ rest)) =
      if fraction = [] then whole else whole ++ '.' :: fraction := by
  rw [decimalPart, beforePoint_point isWhole areDigits stops]
  split
  · rename_i noDigit
    rw [noDigit, dropFinalPoints_point]
    exact dropFinalPoints_digits [] isWhole
  · rename_i someDigit
    rw [List.append_cons]
    exact dropFinalPoints_digits (whole ++ ['.']) ⟨someDigit, areDigits⟩

end Point

/-! ## The longest decimal -/

/-- The longest decimal that a text begins with. -/
structure LongestDecimal (text part : List Char) : Prop where
  /-- The text begins with it. -/
  begins : part <+: text
  /-- It is a decimal. -/
  isDecimal : IsDecimal part
  /-- No decimal that the text begins with is longer. -/
  longest : ∀ other, other <+: text → IsDecimal other → other.length ≤ part.length

section Begins

variable {whole rest : List Char}
variable (wholeDigits : ∀ character ∈ whole, character.isDigit)
variable (stops : ∀ next ∈ rest.head?, next = '.')

include wholeDigits stops

/-- Digits that a text begins with do not reach beyond its first group of digits. -/
theorem begins_of_digits
    {digits : List Char}
    (areDigits : ∀ character ∈ digits, character.isDigit)
    (begins : digits <+: whole ++ rest) :
    digits <+: whole := by
  obtain ⟨more, same⟩ := begins
  have taken := congrArg (List.takeWhile Char.isDigit) same
  rw [List.takeWhile_append_of_pos areDigits,
    (Number.takeWhile_digits wholeDigits rest stops).1] at taken
  exact ⟨_, taken⟩

/-- A decimal that a text begins with either lies in its first group of digits, or goes on behind
this group with a point. -/
theorem begins_cases
    {other : List Char}
    (isDecimal : IsDecimal other)
    (begins : other <+: whole ++ rest) :
    other <+: whole ∨
      ∃ fraction, IsDigits fraction ∧ other = whole ++ '.' :: fraction ∧
        '.' :: fraction <+: rest := by
  cases isDecimal with
  | whole isDigits => exact .inl (begins_of_digits wholeDigits stops isDigits.digits begins)
  | @fraction first fraction isFirst isFraction =>
      right
      obtain ⟨more, same⟩ := begins
      have groups := congrArg (List.takeWhile Char.isDigit) same
      rw [List.append_assoc, List.cons_append,
        (Number.takeWhile_digits isFirst.digits ('.' :: (fraction ++ more)) (by simp)).1,
        (Number.takeWhile_digits wholeDigits rest stops).1] at groups
      subst groups
      rw [List.append_assoc, List.append_cancel_left_eq] at same
      exact ⟨fraction, isFraction, rfl, more, same⟩

end Begins

/-- The fraction of a decimal that a text begins with ends before the second point. -/
theorem begins_point_cases
    {whole fraction rest other : List Char}
    (isWhole : IsDigits whole)
    (areDigits : ∀ character ∈ fraction, character.isDigit)
    (stops : ∀ next ∈ rest.head?, next = '.')
    (isDecimal : IsDecimal other)
    (begins : other <+: whole ++ '.' :: (fraction ++ rest)) :
    other <+: whole ∨
      ∃ digits, IsDigits digits ∧ other = whole ++ '.' :: digits ∧ digits <+: fraction := by
  refine (begins_cases isWhole.digits (by simp) isDecimal begins).imp_right ?_
  rintro ⟨digits, isDigits, isOther, later⟩
  refine ⟨digits, isDigits, isOther, ?_⟩
  exact begins_of_digits areDigits stops isDigits.digits (List.cons_prefix_cons.mp later).2

/-- The cut at the second point, without points at the end, leaves the longest decimal. -/
theorem longestDecimal_decimalPart
    {text : List Char}
    (pointed : Pointed text) :
    LongestDecimal text (decimalPart text) := by
  cases pointed with
  | whole isDigits =>
      rw [decimalPart_whole isDigits]
      exact ⟨List.prefix_rfl, .whole isDigits, fun other begins _ => begins.length_le⟩
  | @point whole fraction rest isWhole areDigits stops =>
      rw [decimalPart_point isWhole areDigits stops]
      split
      · rename_i noDigit
        refine ⟨List.prefix_append .., .whole isWhole, ?_⟩
        intro other begins isDecimal
        rcases begins_point_cases isWhole areDigits stops isDecimal begins with
          shorter | ⟨digits, isDigits, -, inside⟩
        · exact shorter.length_le
        · rw [noDigit, List.prefix_nil] at inside
          exact absurd inside isDigits.nonempty
      · rename_i someDigit
        refine ⟨by simp, .fraction isWhole ⟨someDigit, areDigits⟩, ?_⟩
        intro other begins isDecimal
        rcases begins_point_cases isWhole areDigits stops isDecimal begins with
          shorter | ⟨digits, -, rfl, inside⟩
        · exact (shorter.trans (List.prefix_append ..)).length_le
        · have bound := inside.length_le
          simpa using bound

/-- The part of a number token's text that is read is the longest decimal that the text begins
with, wherever its points lie.  It has a value, which is a number, and this is the value of the
token. -/
theorem numberValue_of_mem_tokenize
    {source : String}
    {token : Token}
    {text : String}
    (present : token ∈ tokenize source)
    (isNumber : token.kind = .number text) :
    LongestDecimal text.toList (decimalPart text.toList) ∧
      ∃ value, Number.read (decimalPart text.toList) = some value ∧
        numberValue text = value ∧ value.isNaN = false := by
  obtain ⟨first, rest, isText, isDigit, numerals⟩ :=
    exists_numberToken_iff.mp ⟨source, token, present, isNumber⟩
  have longest : LongestDecimal text.toList (decimalPart text.toList) := by
    rw [isText]
    exact longestDecimal_decimalPart (pointed_of_numerals isDigit numerals)
  obtain ⟨value, isRead, notNaN⟩ := longest.isDecimal.read
  refine ⟨longest, value, isRead, ?_, notNaN⟩
  rw [numberValue, isRead, Option.getD_some]

/-- A source with a number of two adjacent points, and one that ends in its third point. -/
def pointySource : String := "0️⃣..5️⃣📢1️⃣.2️⃣.3️⃣."

theorem tokenize_pointySource :
    tokenize pointySource = [⟨.number "0..5", ⟨0, 16⟩, ⟨1, 1⟩⟩, ⟨.printWord, ⟨16, 20⟩, ⟨1, 5⟩⟩,
      ⟨.number "1.2.3.", ⟨20, 44⟩, ⟨1, 6⟩⟩, .endOfInput 44 ⟨1, 12⟩] :=
  Scan.tokenize_of_yields (by decide +kernel)

theorem numberValue_of_mem_tokenize_pointySource :
    (⟨.number "0..5", ⟨0, 16⟩, ⟨1, 1⟩⟩ : Token) ∈ tokenize pointySource ∧
      LongestDecimal "0..5".toList "0".toList ∧
    (⟨.number "1.2.3.", ⟨20, 44⟩, ⟨1, 6⟩⟩ : Token) ∈ tokenize pointySource ∧
      LongestDecimal "1.2.3.".toList "1.2".toList ∧
      Number.read "1.2".toList = some 1.2 ∧ numberValue "1.2.3." = 1.2 ∧
      (1.2 : Float).isNaN = false := by
  have first : (⟨.number "0..5", ⟨0, 16⟩, ⟨1, 1⟩⟩ : Token) ∈ tokenize pointySource := by
    rw [tokenize_pointySource]
    decide
  have second : (⟨.number "1.2.3.", ⟨20, 44⟩, ⟨1, 6⟩⟩ : Token) ∈ tokenize pointySource := by
    rw [tokenize_pointySource]
    decide
  obtain ⟨adjacent, -⟩ := numberValue_of_mem_tokenize first rfl
  obtain ⟨trailing, value, isRead, isValue, notNaN⟩ := numberValue_of_mem_tokenize second rfl
  have cut : decimalPart "1.2.3.".toList = "1.2".toList := by decide
  have readValue : Number.read "1.2".toList = some 1.2 := rfl
  rw [cut] at trailing isRead
  obtain rfl := Option.some.inj (readValue.symm.trans isRead)
  exact ⟨first, adjacent, second, trailing, readValue, isValue, notNaN⟩

end Parse
end Pictogram
