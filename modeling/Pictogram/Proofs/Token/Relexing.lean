import Pictogram.Proofs.Text.Cluster
import Pictogram.Proofs.Token.Coverage
import Pictogram.Proofs.Token.Sequence

/-!
# Scanning a token again

The clusters that spell a token spell that token and nothing else when they stand alone,
whatever stood behind them in their source.
-/

namespace Pictogram
namespace Scan

/-! ## Spellings that stand alone -/

/-- The scanner takes all of a run of clusters for one token of a kind. -/
def TakenWhole (run : List Cluster) (kind : Token.Kind) : Prop :=
  ∃ first rest, run = first :: rest ∧ Starts first ∧ lexeme first rest = ⟨kind, run, []⟩

/-- A symbol by itself is read whole. -/
theorem symbol_takenWhole
    {kind : Token.Kind}
    {run : List Cluster}
    (isSymbol : kind.symbol? = some run) :
    TakenWhole run kind := by
  cases kind <;> cases isSymbol <;>
    exact ⟨_, _, rfl, ⟨by decide, by decide, by decide⟩, rfl⟩

/-- A cluster that goes on with a name also begins one. -/
theorem lexeme_of_continuesName
    {first : Cluster}
    (continues : continuesName first)
    (rest : List Cluster) :
    Starts first ∧ lexeme first rest =
      ⟨.identifier (Cluster.join (first :: rest.takeWhile continuesName)),
        first :: rest.takeWhile continuesName, rest.dropWhile continuesName⟩ := by
  obtain ⟨notPoint, notSpeech, notSign, notSymbol, notDigit, notBlank⟩ :=
    continuesName_iff.mp continues
  have notBalance : first ≠ Symbol.balance := by
    rintro rfl
    cases notSymbol
  have notHand : first ≠ Symbol.leftHand := by
    rintro rfl
    cases notSymbol
  refine ⟨⟨notBlank, notPoint, notSign⟩, ?_⟩
  simp [lexeme, notBalance, notHand, notSpeech, notDigit, notSymbol]

/-- A name by itself is read whole. -/
theorem name_takenWhole
    {first : Cluster}
    {rest : List Cluster}
    (continues : ∀ cluster ∈ first :: rest, continuesName cluster) :
    TakenWhole (first :: rest) (.identifier (Cluster.join (first :: rest))) := by
  obtain ⟨firstContinues, restContinues⟩ := List.forall_mem_cons.mp continues
  obtain ⟨starts, scanned⟩ := lexeme_of_continuesName firstContinues rest
  refine ⟨first, rest, rfl, starts, ?_⟩
  rw [scanned, List.takeWhile_eq_self_iff.mpr restContinues,
    List.dropWhile_eq_nil_iff.mpr restContinues]

theorem digit?_keycap {digit : Char} (isDigit : digit.isDigit) :
    Symbol.digit? (Symbol.keycap digit) = some digit :=
  if_pos isDigit

theorem shown_numeral
    {character : Char}
    (isNumeral : character.isDigit ∨ character = '.') :
    shown (numeral character) = character ∧ continuesNumber (numeral character) := by
  by_cases isPoint : character = '.'
  · subst isPoint
    exact ⟨rfl, rfl⟩
  · have shows := digit?_keycap (isNumeral.resolve_right isPoint)
    simp [shown, numeral, isPoint, continuesNumber, shows]

/-- The keycap of a digit begins a number. -/
theorem lexeme_keycap
    {digit : Char}
    (isDigit : digit.isDigit)
    (rest : List Cluster) :
    Starts (Symbol.keycap digit) ∧ lexeme (Symbol.keycap digit) rest =
      ⟨.number (numberText (Symbol.keycap digit :: rest.takeWhile continuesNumber)),
        Symbol.keycap digit :: rest.takeWhile continuesNumber,
        rest.dropWhile continuesNumber⟩ := by
  have shows := digit?_keycap isDigit
  -- No other symbol shows a digit.
  have apart (symbol : Cluster) (showsNone : Symbol.digit? symbol = none) :
      Symbol.keycap digit ≠ symbol := by
    rintro rfl
    rw [shows] at showsNone
    cases showsNone
  have notBlank : Symbol.isBlank (Symbol.keycap digit) = false := by
    have capNotBlank : Text.isBlank '\u20E3' = false := rfl
    simp [Symbol.isBlank, Symbol.keycap, capNotBlank]
  refine ⟨⟨notBlank, apart _ rfl, apart _ rfl⟩, ?_⟩
  simp [lexeme, apart Symbol.balance rfl, apart Symbol.leftHand rfl, apart Symbol.speech rfl, shows]

/-- A number by itself is read whole. -/
theorem number_takenWhole
    {first : Char}
    {rest : List Char}
    (isDigit : first.isDigit)
    (numerals : ∀ character ∈ rest, character.isDigit ∨ character = '.') :
    TakenWhole ((first :: rest).map numeral) (.number (String.ofList (first :: rest))) := by
  have isKeycap : numeral first = Symbol.keycap first := by
    refine if_neg ?_
    rintro rfl
    cases isDigit
  have continues : ∀ cluster ∈ rest.map numeral, continuesNumber cluster := by
    intro cluster present
    obtain ⟨character, inside, rfl⟩ := List.mem_map.mp present
    exact (shown_numeral (numerals character inside)).2
  have text : numberText ((first :: rest).map numeral) = String.ofList (first :: rest) := by
    refine congrArg String.ofList ?_
    rw [List.map_map, List.map_congr_left (g := id), List.map_id]
    intro character present
    refine (shown_numeral ?_).1
    rcases List.mem_cons.mp present with rfl | inside
    · exact .inl isDigit
    · exact numerals character inside
  obtain ⟨starts, scanned⟩ := lexeme_keycap isDigit (rest.map numeral)
  rw [List.takeWhile_eq_self_iff.mpr continues, List.dropWhile_eq_nil_iff.mpr continues,
    ← isKeycap] at scanned
  rw [← isKeycap] at starts
  refine ⟨numeral first, rest.map numeral, rfl, starts, ?_⟩
  rw [scanned, ← List.map_cons, text]

/-- A string by itself is read whole, closed or not. -/
theorem string_takenWhole
    {content : List Cluster}
    (inside : ∀ cluster ∈ content, cluster ≠ Symbol.speech) :
    TakenWhole (Symbol.speech :: (content ++ [Symbol.speech])) (.string (Cluster.join content)) ∧
      TakenWhole (Symbol.speech :: content) (.string (Cluster.join content)) := by
  have starts : Starts Symbol.speech := ⟨by decide, by decide, by decide⟩
  have goesOn : ∀ cluster ∈ content, decide (cluster ≠ Symbol.speech) = true := by
    simpa using inside
  have scanned (rest : List Cluster) : lexeme Symbol.speech rest = stringLexeme rest := rfl
  refine ⟨⟨_, _, rfl, starts, ?_⟩, _, _, rfl, starts, ?_⟩
  · rw [scanned, stringLexeme, List.takeWhile_append_of_pos goesOn,
      List.dropWhile_append_of_pos goesOn]
    simp
  · rw [scanned, stringLexeme, List.takeWhile_eq_self_iff.mpr goesOn,
      List.dropWhile_eq_nil_iff.mpr goesOn]

/-- What spells a token is scanned as that token when it stands alone. -/
theorem Spells.takenWhole
    {ends : Prop}
    {kind : Token.Kind}
    {run : List Cluster}
    (spells : Spells ends kind run) :
    TakenWhole run kind := by
  cases spells with
  | symbol isSymbol => exact symbol_takenWhole isSymbol
  | name continues => exact name_takenWhole continues
  | number isDigit numerals => exact number_takenWhole isDigit numerals
  | string inside => exact (string_takenWhole inside).1
  | openString _ inside => exact (string_takenWhole inside).2

/-! ## Texts of one token -/

/-- A cursor that stands in front of a token, without a gap, reads that token. -/
theorem Cursor.next_of_starts
    {first : Cluster}
    (starts : Starts first)
    (rest : List Cluster)
    (offset : Nat)
    (position : Position) :
    Cursor.next ⟨first :: rest, offset, position⟩ =
      (⟨(lexeme first rest).kind,
        ⟨offset, offset + byteSize (lexeme first rest).spelling⟩, position⟩,
        ⟨(lexeme first rest).rest, offset + byteSize (lexeme first rest).spelling,
          position.afterAll (lexeme first rest).spelling⟩) := by
  have noGap : gap false [] (first :: rest) = ([], first :: rest) := by
    simp [gap, starts.notBlank, starts.notPoint, starts.notSign]
  simp [Cursor.next, Cursor.skipGap, noGap, Cursor.beyond, foldl_byteSize]

theorem Cursor.next_nil (offset : Nat) (position : Position) :
    Cursor.next ⟨[], offset, position⟩ =
      (.endOfInput offset position, ⟨[], offset, position⟩) := rfl

/-- The tokens of a text whose clusters are those of one token. -/
theorem tokenize_of_takenWhole
    {text : String}
    {kind : Token.Kind}
    (whole : TakenWhole (Text.clusters text.toList) kind) :
    tokenize text = [⟨kind, ⟨0, text.utf8ByteSize⟩, .origin⟩,
      .endOfInput text.utf8ByteSize (Position.origin.afterAll (Text.clusters text.toList))] := by
  have size := byteSize_clusters text
  obtain ⟨first, rest, isRun, starts, scanned⟩ := whole
  have notEnd := lexeme_kind_ne_endOfInput first rest
  have read := Cursor.next_of_starts starts rest 0 .origin
  rw [scanned] at notEnd read
  rw [size, Nat.zero_add] at read
  simp only [tokenize, Cursor.ofText]
  rw [tokensFrom, isRun, read, if_pos notEnd, tokensFrom, Cursor.next_nil]
  simp [Token.endOfInput, isRun]

/-- Each token of a source is the only token of the text that it spans, where it begins at the
first place and reaches to the end. -/
theorem tokenize_slice
    {source : String}
    {token : Token}
    (present : token ∈ tokenize source)
    (notEnd : token.kind ≠ .endOfInput) :
    let text := token.span.slice source
    tokenize text = [⟨token.kind, ⟨0, text.utf8ByteSize⟩, ⟨1, 1⟩⟩,
      .endOfInput text.utf8ByteSize (Position.origin.afterAll (Text.clusters text.toList))] := by
  obtain ⟨all, made, covers⟩ := tokensFrom_covers (.ofText source) #[]
  obtain ⟨tokens, position, isAll, faithful, -⟩ := covers.faithful [] rfl rfl
  have inside : token ∈ tokens := by
    have isOne : token ∈ tokens ∨ token = .endOfInput source.utf8ByteSize position := by
      simpa [tokenize, made, isAll] using present
    refine isOne.resolve_right ?_
    rintro rfl
    exact notEnd rfl
  obtain ⟨before, after, split⟩ := List.append_of_mem inside
  obtain ⟨run, holds, spells⟩ := faithful.spelled before token after split
  obtain ⟨front, back, cut, -⟩ := holds.cut
  have clusters : Text.clusters (token.span.slice source).toList = run := by
    rw [holds.slice_eq, Cluster.join, String.toList_ofList, Text.clusters_flatten_of_cut cut]
  refine tokenize_of_takenWhole ?_
  rw [clusters]
  exact spells.takenWhole

/-- A source with an odd number of regional indicators, a number that ends in a point, and a
string without an end. -/
def oddSource : String := "🇩🇪🇫1️⃣.💬\r\n⛔️"

theorem tokenize_oddSource :
    tokenize oddSource = [⟨.identifier "🇩🇪🇫", ⟨0, 12⟩, ⟨1, 1⟩⟩, ⟨.number "1.", ⟨12, 20⟩, ⟨1, 3⟩⟩,
      ⟨.string "\r\n⛔️", ⟨20, 32⟩, ⟨1, 5⟩⟩, .endOfInput 32 ⟨2, 2⟩] :=
  tokenize_of_yields (by decide +kernel)

theorem tokenize_slice_oddSource :
    (⟨.string "\r\n⛔️", ⟨20, 32⟩, ⟨1, 5⟩⟩ : Token) ∈ tokenize oddSource ∧
      tokenize "💬\r\n⛔️" =
        [⟨.string "\r\n⛔️", ⟨0, 12⟩, ⟨1, 1⟩⟩, .endOfInput 12 ⟨2, 2⟩] := by
  have present : (⟨.string "\r\n⛔️", ⟨20, 32⟩, ⟨1, 5⟩⟩ : Token) ∈ tokenize oddSource := by
    rw [tokenize_oddSource]
    decide
  have text : (Span.mk 20 32).slice oddSource = "💬\r\n⛔️" := by decide +kernel
  have clusters : Text.clusters "💬\r\n⛔️".toList = [Symbol.speech, ['\r', '\n'], Symbol.stop] := by
    decide +kernel
  have again := tokenize_slice present (by decide)
  simp only [text, clusters] at again
  exact ⟨present, again⟩

end Scan
end Pictogram
