import Pictogram.Proofs.Token.Joining

/-!
# Tokens written out

Every kind of token but the end of the input can be written as a text: a fixed kind by its
symbol, an identifier by its name, a number by keycaps and points, a string between speech
balloons.  Written one to a line, kinds are scanned again as they are.
-/

namespace Pictogram

/-! ## The clusters of numerals -/

namespace Text

/-- A digit or a point, and what has joined it, opens the way to no further joining. -/
def Trail.Closed (trail : Trail) : Prop :=
  ∃ last, (last = .other ∨ last = .extending) ∧ trail = ⟨last, .absent, .absent, false⟩

theorem BreakClass.ofChar_of_ascii
    {c : Char}
    (least : 0x20 ≤ c.toNat)
    (greatest : c.toNat < 0x7F) :
    BreakClass.ofChar c = .other := by
  have notReturn : c.toNat ≠ 0xD := by omega
  have notFeed : c.toNat ≠ 0xA := by omega
  simp [ofChar, notReturn, notFeed, least, greatest]

theorem Trail.closed_start
    {c : Char}
    (least : 0x20 ≤ c.toNat)
    (greatest : c.toNat < 0x7F) :
    Trail.start c = ⟨.other, .absent, .absent, false⟩ := by
  have low : ¬0x7F < c.toNat := by omega
  simp [start, BreakClass.ofChar_of_ascii least greatest, nextPictograph, nextConjunct,
    isPictographic, isConsonant, low]

/-- No character of ASCII that is shown joins a closed cluster. -/
theorem Trail.Closed.not_joins
    {trail : Trail}
    (closed : trail.Closed)
    {c : Char}
    (least : 0x20 ≤ c.toNat)
    (greatest : c.toNat < 0x7F) :
    trail.joins c = false := by
  obtain ⟨last, isLast, rfl⟩ := closed
  rcases isLast with rfl | rfl <;>
    simp [joins, BreakClass.ofChar_of_ascii least greatest, BreakClass.isolated,
      BreakClass.joinsSyllable]

theorem Trail.Closed.extent_eq
    {trail : Trail}
    (closed : trail.Closed)
    {rest : List Char}
    (ascii : ∀ c ∈ rest.head?, 0x20 ≤ c.toNat ∧ c.toNat < 0x7F) :
    extent trail rest = ([], rest) := by
  cases rest with
  | nil => rfl
  | cons c others =>
      obtain ⟨least, greatest⟩ := ascii c rfl
      simp [extent, closed.not_joins least greatest]

end Text

namespace Scan

theorem ascii_of_numeral
    {character : Char}
    (isNumeral : character.isDigit ∨ character = '.') :
    0x20 ≤ character.toNat ∧ character.toNat < 0x7F := by
  rcases isNumeral with isDigit | rfl
  · simp only [Char.isDigit, Bool.and_eq_true, decide_eq_true_eq, UInt32.le_iff_toNat_le] at isDigit
    have code : character.val.toNat = character.toNat := rfl
    have least : '0'.val.toNat = 48 := rfl
    have greatest : '9'.val.toNat = 57 := rfl
    omega
  · decide

/-- A numeral is a cluster of its own in front of other numerals. -/
theorem clusters_numeral_append
    {character : Char}
    (isNumeral : character.isDigit ∨ character = '.')
    {rest : List Char}
    (ascii : ∀ c ∈ rest.head?, 0x20 ≤ c.toNat ∧ c.toNat < 0x7F) :
    Text.clusters (numeral character ++ rest) = numeral character :: Text.clusters rest := by
  obtain ⟨least, greatest⟩ := ascii_of_numeral isNumeral
  have start := Text.Trail.closed_start least greatest
  by_cases isPoint : character = '.'
  · subst isPoint
    have alone : Text.extent (.start '.') rest = ([], rest) :=
      Text.Trail.Closed.extent_eq ⟨_, .inl rfl, start⟩ ascii
    show Text.clusters ('.' :: rest) = _
    rw [Text.clusters_cons, alone]
    rfl
  · -- The variation selector and the keycap join the digit, and then nothing does.
    have selector : Text.Trail.joins ⟨.other, .absent, .absent, false⟩ '\uFE0F' = true := by
      decide +kernel
    have selected : Text.Trail.push ⟨.other, .absent, .absent, false⟩ '\uFE0F' =
        ⟨.extending, .absent, .absent, false⟩ := by decide +kernel
    have cap : Text.Trail.joins ⟨.extending, .absent, .absent, false⟩ '\u20E3' = true := by
      decide +kernel
    have capped : Text.Trail.push ⟨.extending, .absent, .absent, false⟩ '\u20E3' =
        ⟨.extending, .absent, .absent, false⟩ := by decide +kernel
    have behind : Text.extent ⟨.extending, .absent, .absent, false⟩ rest = ([], rest) :=
      Text.Trail.Closed.extent_eq ⟨_, .inr rfl, rfl⟩ ascii
    have isKeycap : numeral character = Symbol.keycap character := if_neg isPoint
    rw [isKeycap, Symbol.keycap, List.cons_append, Text.clusters_cons, start]
    simp [Text.extent, selector, selected, cap, capped, behind]

/-- The numerals of a number are its clusters. -/
theorem clusters_numerals
    {characters : List Char}
    (numerals : ∀ character ∈ characters, character.isDigit ∨ character = '.') :
    Text.clusters (characters.map numeral).flatten = characters.map numeral := by
  induction characters with
  | nil => rfl
  | cons character rest inductionHypothesis =>
      obtain ⟨isNumeral, others⟩ := List.forall_mem_cons.mp numerals
      rw [List.map_cons, List.flatten_cons, clusters_numeral_append isNumeral,
        inductionHypothesis others]
      -- What follows begins with a digit or a point.
      intro c isNext
      cases rest with
      | nil => cases isNext
      | cons next further =>
          have same : c = next := by
            by_cases isPoint : next = '.'
            · subst isPoint
              exact (Option.some.inj isNext).symm
            · simpa [numeral, isPoint, Symbol.keycap, eq_comm] using isNext
          rw [same]
          exact ascii_of_numeral (others next List.mem_cons_self)

end Scan

/-! ## Kinds as texts -/

namespace Token.Kind

/-- A kind as a source text. -/
def written : Kind → String
  | .number text => Cluster.join (text.toList.map Scan.numeral)
  | .string text => Cluster.join [Symbol.speech] ++ text ++ Cluster.join [Symbol.speech]
  | .identifier name => name
  | kind => kind.symbolText?.getD ""

/-- A kind that a text stands for. -/
def Writable : Kind → Prop
  -- A digit, and then digits and points.
  | .number text => ∃ first rest, text.toList = first :: rest ∧ first.isDigit ∧
      ∀ character ∈ rest, character.isDigit ∨ character = '.'
  -- The balloons join nothing of the text, and no other balloon is in it.
  | .string text =>
      Text.clusters (written (.string text)).toList =
        Symbol.speech :: (Text.clusters text.toList ++ [Symbol.speech]) ∧
      ∀ cluster ∈ Text.clusters text.toList, cluster ≠ Symbol.speech
  | .identifier name => name ≠ "" ∧ ∀ cluster ∈ Text.clusters name.toList,
      Symbol.isReserved cluster = false ∧ Symbol.isBlank cluster = false
  | .endOfInput => False
  | _ => True

end Token.Kind

namespace Scan

/-- A symbol is made of its own clusters. -/
theorem clusters_symbol
    {kind : Token.Kind}
    {run : List Cluster}
    (isSymbol : kind.symbol? = some run) :
    Text.clusters run.flatten = run := by
  cases kind <;> cases isSymbol <;> decide +kernel

theorem spells_of_symbol
    {kind : Token.Kind}
    {run : List Cluster}
    (isSymbol : kind.symbol? = some run)
    (isWritten : kind.written = (kind.symbolText?).getD "") :
    Spells False kind (Text.clusters kind.written.toList) := by
  have text : kind.written = Cluster.join run := by
    rw [isWritten, Token.Kind.symbolText?, isSymbol]
    rfl
  rw [text, Cluster.join, String.toList_ofList, clusters_symbol isSymbol]
  exact .symbol isSymbol

/-- The clusters of a kind that is written out spell it. -/
theorem spells_written
    {kind : Token.Kind}
    (writable : kind.Writable) :
    Spells False kind (Text.clusters kind.written.toList) := by
  cases kind with
  | number text =>
      obtain ⟨first, rest, isText, isDigit, numerals⟩ := writable
      have all : ∀ character ∈ first :: rest, character.isDigit ∨ character = '.' :=
        List.forall_mem_cons.mpr ⟨.inl isDigit, numerals⟩
      have same : text = String.ofList (first :: rest) := by rw [← isText, String.ofList_toList]
      have spells : Spells False (.number (String.ofList (first :: rest)))
          ((first :: rest).map numeral) := .number isDigit numerals
      rw [Token.Kind.written, Cluster.join, String.toList_ofList, isText, clusters_numerals all,
        same]
      exact spells
  | string text =>
      obtain ⟨clusters, inside⟩ := writable
      have spells : Spells False (.string (Cluster.join (Text.clusters text.toList)))
          (Symbol.speech :: (Text.clusters text.toList ++ [Symbol.speech])) := .string inside
      rw [clusters]
      rwa [Cluster.join, Text.flatten_clusters, String.ofList_toList] at spells
  | identifier name =>
      obtain ⟨nonempty, free⟩ := writable
      have continues : ∀ cluster ∈ Text.clusters name.toList, continuesName cluster := by
        intro cluster present
        simp [continuesName, free cluster present]
      have joined : Cluster.join (Text.clusters name.toList) = name := by
        rw [Cluster.join, Text.flatten_clusters, String.ofList_toList]
      rw [Token.Kind.written]
      cases isRun : Text.clusters name.toList with
      | nil =>
          rw [isRun] at joined
          exact absurd joined.symm nonempty
      | cons first rest =>
          rw [isRun] at continues joined
          have spells : Spells False (.identifier (Cluster.join (first :: rest))) (first :: rest) :=
            .name continues
          rwa [joined] at spells
  | endOfInput => exact writable.elim
  | _ => exact spells_of_symbol rfl rfl

/-! ## Kinds one to a line -/

/-- A token does not end with a blank. -/
theorem Spells.last_not_blank
    {kind : Token.Kind}
    {run : List Cluster}
    (spells : Spells False kind run) :
    ∀ last ∈ run.getLast?, Symbol.isBlank last = false := by
  cases spells with
  | symbol isSymbol => cases kind <;> cases isSymbol <;> decide
  | name continues =>
      intro last isLast
      have goesOn := continues last (List.mem_of_getLast? isLast)
      simp only [continuesName, Bool.not_eq_true', Bool.or_eq_false_iff] at goesOn
      exact goesOn.2
  | @number first rest isDigit numerals =>
      intro last isLast
      obtain ⟨character, present, rfl⟩ := List.mem_map.mp (List.mem_of_getLast? isLast)
      by_cases isPoint : character = '.'
      · subst isPoint
        decide
      · have digit : character.isDigit := by
          rcases List.mem_cons.mp present with rfl | inRest
          · exact isDigit
          · exact (numerals character inRest).resolve_right isPoint
        rw [numeral, if_neg isPoint]
        exact (lexeme_keycap digit []).1.notBlank
  | string inside =>
      intro last isLast
      obtain rfl : Symbol.speech = last := by
        rw [← List.cons_append, List.getLast?_concat] at isLast
        exact Option.some.inj isLast
      decide
  | openString never => exact never.elim

/-- A line feed behind a token is a cluster of its own. -/
theorem clusters_append_feed
    {kind : Token.Kind}
    {text : List Char}
    (spells : Spells False kind (Text.clusters text))
    (more : List Char) :
    Text.clusters (text ++ '\n' :: more) = Text.clusters text ++ ['\n'] :: Text.clusters more := by
  obtain ⟨run, tail, newline, lineEnd, without, within⟩ := Text.clusters_concat_lineFeed text
  rw [Text.clusters_append_lineFeed, within, without]
  cases lineEnd with
  | feed => simp
  | afterReturn =>
      rw [without] at spells
      have notBlank := spells.last_not_blank ['\r'] (by simp)
      cases notBlank

/-- A string that is spelled in the middle of a source is closed. -/
theorem Spells.mem_of_speech
    {kind : Token.Kind}
    {rest : List Cluster}
    (spells : Spells False kind (Symbol.speech :: rest)) :
    Symbol.speech ∈ rest := by
  -- Only a string begins with a balloon.
  have isString : ∃ text, kind = .string text := by
    obtain ⟨first, others, isRun, -, scanned⟩ := spells.takenWhole
    obtain ⟨rfl, rfl⟩ := List.cons.inj isRun
    have kindIs : (stringLexeme rest).kind = kind := congrArg Lexeme.kind scanned
    refine ⟨Cluster.join (rest.takeWhile (· ≠ Symbol.speech)), kindIs.symm.trans ?_⟩
    unfold stringLexeme
    split <;> rfl
  obtain ⟨text, rfl⟩ := isString
  generalize isRun : Symbol.speech :: rest = run at spells
  cases spells with
  | symbol isSymbol => cases isSymbol
  | string inside =>
      obtain ⟨-, rfl⟩ := List.cons.inj isRun
      simp
  | openString never => exact never.elim

/-- A cursor in front of a token that a blank, or nothing, follows. -/
theorem tokens_of_spells
    {kind : Token.Kind}
    {run more : List Cluster}
    (spells : Spells False kind run)
    (blank : ∀ next ∈ more.head?, Symbol.isBlank next)
    (offset : Nat)
    (position : Position) :
    tokens ⟨run ++ more, offset, position⟩ =
      ⟨kind, ⟨offset, offset + byteSize run⟩, position⟩ ::
        tokens ⟨more, offset + byteSize run, position.afterAll run⟩ := by
  obtain ⟨first, rest, rfl, starts, scanned⟩ := spells.takenWhole
  have closed : first = Symbol.speech → Symbol.speech ∈ rest := by
    rintro rfl
    exact spells.mem_of_speech
  have noGap : gap false [] (first :: rest ++ more) = ([], first :: (rest ++ more)) := by
    simp [gap, starts.notBlank, starts.notPoint, starts.notSign]
  have isLexeme : lexeme first (rest ++ more) = ⟨kind, first :: rest, more⟩ := by
    rw [lexeme_followedBy closed blank, scanned]
    rfl
  have split := tokens_of_lexeme noGap isLexeme offset position
  simpa using split

/-- A line feed in front of a cursor is skipped. -/
theorem tokens_feed
    (more : List Cluster)
    (offset : Nat)
    (position : Position) :
    tokens ⟨['\n'] :: more, offset, position⟩ =
      tokens ⟨more, offset + byteSize [['\n']], position.after ['\n']⟩ := by
  have nothing : tokens ⟨[], offset, position⟩ = [.endOfInput offset position] := tokens_of_end rfl
  have skipped := tokens_join .feed [] more offset position (by simp [nothing, lastToken?])
  simpa [nothing] using skipped

/-- Kinds that are written on lines of their own are read back. -/
theorem kinds_of_written
    {kinds : List Token.Kind}
    (writable : ∀ kind ∈ kinds, kind.Writable)
    (offset : Nat)
    (position : Position) :
    (tokens ⟨Text.clusters ("\n".intercalate (kinds.map Token.Kind.written)).toList, offset,
      position⟩).map Token.kind = kinds ++ [.endOfInput] := by
  have atEnd (offset : Nat) (position : Position) :
      tokens ⟨[], offset, position⟩ = [.endOfInput offset position] := tokens_of_end rfl
  induction kinds generalizing offset position with
  | nil =>
      simp only [List.map_nil, String.intercalate_nil]
      rw [show Text.clusters "".toList = [] from rfl, atEnd]
      rfl
  | cons kind rest inductionHypothesis =>
      obtain ⟨first, others⟩ := List.forall_mem_cons.mp writable
      have spells := spells_written first
      cases rest with
      | nil =>
          have noMore : ∀ next ∈ ([] : List Cluster).head?, Symbol.isBlank next := by simp
          have alone := tokens_of_spells spells noMore offset position
          rw [List.append_nil, atEnd] at alone
          simp only [List.map_cons, List.map_nil, String.intercalate_singleton]
          rw [alone]
          rfl
      | cons next further =>
          have whole :
              ("\n".intercalate ((kind :: next :: further).map Token.Kind.written)).toList =
              kind.written.toList ++ '\n' ::
                ("\n".intercalate ((next :: further).map Token.Kind.written)).toList := by
            simp [String.intercalate_cons_cons]
          have blank : Symbol.isBlank ['\n'] := by decide
          rw [whole, clusters_append_feed spells, tokens_of_spells spells (by simpa using blank),
            List.map_cons, tokens_feed, inductionHypothesis others]
          rfl

end Scan

/-- Kinds that are written one to a line are the kinds of the tokens of that text, in order,
before the end of the input. -/
theorem tokenize_written
    {kinds : List Token.Kind}
    (writable : ∀ kind ∈ kinds, kind.Writable) :
    (tokenize ("\n".intercalate (kinds.map Token.Kind.written))).map Token.kind =
      kinds ++ [.endOfInput] :=
  Scan.kinds_of_written writable 0 .origin

/-- Kinds that would make other tokens without the line feeds between them. -/
def touchyKinds : List Token.Kind :=
  [.equal, .lessThan, .greaterThan, .equal, .number "1.", .number "2", .identifier "é",
    .identifier "\uFE0F", .string ".\r\n"]

theorem tokenize_written_touchyKinds :
    "\n".intercalate (touchyKinds.map Token.Kind.written) =
      "⚖️\n👉\n👈\n⚖️\n1️⃣.\n2️⃣\né\n\uFE0F\n💬.\r\n💬" ∧
    (tokenize "⚖️\n👉\n👈\n⚖️\n1️⃣.\n2️⃣\né\n\uFE0F\n💬.\r\n💬").map Token.kind =
      touchyKinds ++ [.endOfInput] := by
  have text : "\n".intercalate (touchyKinds.map Token.Kind.written) =
      "⚖️\n👉\n👈\n⚖️\n1️⃣.\n2️⃣\né\n\uFE0F\n💬.\r\n💬" := by decide +kernel
  have writable : ∀ kind ∈ touchyKinds, kind.Writable := by
    simp only [touchyKinds, List.forall_mem_cons, List.not_mem_nil, false_implies, implies_true,
      and_true]
    exact ⟨trivial, trivial, trivial, trivial, ⟨'1', ['.'], rfl, rfl, by simp⟩,
      ⟨'2', [], rfl, rfl, by simp⟩, ⟨by decide, by decide +kernel⟩,
      ⟨by decide, by decide +kernel⟩, by decide +kernel, by decide +kernel⟩
  have scanned := tokenize_written writable
  rw [text] at scanned
  exact ⟨text, scanned⟩

end Pictogram
