import Pictogram.Proofs.Token.Relexing

/-!
# The tokens of two texts, one on the lines below the other

A line feed between two texts keeps their tokens apart, and those of the second text stand
as many lines further down as the first text has.  Only a string without an end reaches
across the line feed.
-/

namespace Pictogram

/-- A position that many lines further down. -/
def Position.below (lines : Nat) (position : Position) : Position :=
  ⟨position.line + lines, position.column⟩

/-- Further down, clusters move a position as they do above. -/
theorem Position.afterAll_below (lines : Nat) (position : Position) (run : List Cluster) :
    (position.below lines).afterAll run = (position.afterAll run).below lines := by
  induction run generalizing position with
  | nil => rfl
  | cons cluster rest inductionHypothesis =>
      have step : (position.below lines).after cluster = (position.after cluster).below lines := by
        simp only [after, below]
        split
        · simp [Nat.add_right_comm]
        · rfl
      rw [afterAll_cons, afterAll_cons, step, inductionHypothesis]

/-- A position is as many lines further down as there are newlines. -/
theorem Position.line_afterAll (position : Position) (run : List Cluster) :
    (position.afterAll run).line = position.line + run.countP Cluster.isNewline := by
  induction run generalizing position with
  | nil => rfl
  | cons cluster rest inductionHypothesis =>
      rw [afterAll_cons, inductionHypothesis, List.countP_cons]
      simp only [after]
      split
      · simp only
        omega
      · rfl

/-- A newline leads to the first column of the line below. -/
theorem Position.afterAll_newline
    {newline : Cluster}
    (isNewline : newline.isNewline)
    (position : Position)
    (run : List Cluster) :
    position.afterAll (run ++ [newline]) =
      ⟨position.line + (run ++ [newline]).countP Cluster.isNewline, 1⟩ := by
  rw [← line_afterAll, afterAll_append]
  simp [after, isNewline]

/-- A token that many bytes and lines further down. -/
def Token.below (bytes lines : Nat) (token : Token) : Token :=
  ⟨token.kind, ⟨token.span.start + bytes, token.span.stop + bytes⟩, token.position.below lines⟩

namespace Scan

/-! ## Texts further down -/

/-- A cursor that many bytes and lines further down. -/
def Cursor.below (bytes lines : Nat) (cursor : Cursor) : Cursor :=
  ⟨cursor.rest, cursor.offset + bytes, cursor.position.below lines⟩

/-- Further down, the same token is read, as far down as the text. -/
theorem Cursor.next_below (bytes lines : Nat) (cursor : Cursor) :
    (cursor.below bytes lines).next =
      (cursor.next.1.below bytes lines, cursor.next.2.below bytes lines) := by
  have moved (here : Cursor) (taken rest : List Cluster) :
      (here.below bytes lines).beyond taken rest = (here.beyond taken rest).below bytes lines := by
    simp only [beyond, below, foldl_byteSize, Position.afterAll_below, Nat.add_right_comm]
  have skipped : (cursor.below bytes lines).skipGap = cursor.skipGap.below bytes lines :=
    moved cursor _ _
  have restSame : (cursor.skipGap.below bytes lines).rest = cursor.skipGap.rest := rfl
  simp only [next, skipped, restSame]
  split
  · rfl
  · simp only [moved]
    rfl

/-- The tokens of a text further down are its tokens, further down. -/
theorem tokens_below (bytes lines : Nat) (cursor : Cursor) :
    tokens (cursor.below bytes lines) = (tokens cursor).map (Token.below bytes lines) := by
  generalize size : cursor.rest.length = length
  induction length using Nat.strong_induction_on generalizing cursor with
  | _ length inductionHypothesis =>
      have next := cursor.next_below bytes lines
      by_cases isEnd : cursor.next.1.kind = .endOfInput
      · have isEndBelow : (cursor.below bytes lines).next.1.kind = .endOfInput := by
          rw [next]
          exact isEnd
        rw [tokens_of_end isEnd, tokens_of_end isEndBelow, next]
        rfl
      · have moreBelow : (cursor.below bytes lines).next.1.kind ≠ .endOfInput := by
          rw [next]
          exact isEnd
        have shorter := cursor.length_next_lt isEnd
        rw [tokens_of_more isEnd, tokens_of_more moreBelow, next,
          inductionHypothesis _ (size ▸ shorter) cursor.next.2 rfl]
        rfl

/-! ## Gaps and tokens with more behind them -/

/-- The clusters found so far only stand in front of the gap. -/
theorem gap_skipped (inComment : Bool) (skipped run : List Cluster) :
    gap inComment skipped run =
      (skipped.reverse ++ (gap inComment [] run).1, (gap inComment [] run).2) := by
  induction run generalizing inComment skipped with
  | nil => simp [gap]
  | cons cluster rest inductionHypothesis =>
      have step (inside : Bool) : gap inside (cluster :: skipped) rest =
          (skipped.reverse ++ (gap inside [cluster] rest).1, (gap inside [cluster] rest).2) := by
        rw [inductionHypothesis, inductionHypothesis inside [cluster]]
        simp
      simp only [gap]
      split
      · exact step _
      · split
        · exact step _
        · split
          · exact step _
          · simp

/-- With more behind it, a run of clusters either is all gap, which goes on inside or outside
of a comment, or its gap ends where it ended before. -/
theorem gap_append (inComment : Bool) (skipped run : List Cluster) :
    (∃ inside, ∀ more, gap inComment skipped (run ++ more) =
      gap inside (run.reverse ++ skipped) more) ∨
    ∃ taken first others, run = taken ++ first :: others ∧ Starts first ∧
      ∀ more, gap inComment skipped (run ++ more) =
        (skipped.reverse ++ taken, first :: (others ++ more)) := by
  induction run generalizing inComment skipped with
  | nil => exact .inl ⟨inComment, fun _ => rfl⟩
  | cons cluster rest inductionHypothesis =>
      have step (inside : Bool) (goesOn : ∀ more, gap inComment skipped (cluster :: more) =
          gap inside (cluster :: skipped) more) :
          (∃ inside, ∀ more, gap inComment skipped (cluster :: rest ++ more) =
            gap inside ((cluster :: rest).reverse ++ skipped) more) ∨
          ∃ taken first others, cluster :: rest = taken ++ first :: others ∧ Starts first ∧
            ∀ more, gap inComment skipped (cluster :: rest ++ more) =
              (skipped.reverse ++ taken, first :: (others ++ more)) := by
        rcases inductionHypothesis inside (cluster :: skipped) with ⟨last, allGap⟩ |
          ⟨taken, first, others, split, starts, stops⟩
        · exact .inl ⟨last, fun more => by simp [goesOn, allGap]⟩
        · refine .inr ⟨cluster :: taken, first, others, by simp [split], starts, fun more => ?_⟩
          simp [goesOn, stops]
      cases inComment with
      | true => exact step (!cluster.isNewline) fun more => rfl
      | false =>
          by_cases blankOrPoint : (Symbol.isBlank cluster || cluster = Symbol.decimalPoint) = true
          · exact step false fun more => by simp [gap, blankOrPoint]
          by_cases isSign : cluster = Symbol.sign
          · subst isSign
            exact step true fun more => rfl
          refine .inr ⟨[], cluster, rest, rfl, ?_, fun more => by simp [gap, blankOrPoint, isSign]⟩
          rw [Bool.or_eq_true_iff, not_or] at blankOrPoint
          exact ⟨by simpa using blankOrPoint.1, by simpa using blankOrPoint.2, isSign⟩

/-- A line end is part of every gap, and ends a comment. -/
theorem gap_lineEnd
    {tail : List Cluster}
    {newline : Cluster}
    (lineEnd : Text.LineEnd tail newline)
    (inComment : Bool)
    (skipped : List Cluster) :
    (gap inComment skipped tail).2 = [] ∧
      ∀ more, gap inComment skipped (newline :: more) = gap false (newline :: skipped) more := by
  cases lineEnd <;> cases inComment <;> exact ⟨rfl, fun _ => rfl⟩

/-- What follows does not matter to a run that stops before it. -/
theorem takeWhile_stops
    {p : Cluster → Bool}
    (run more : List Cluster)
    (stops : (∃ cluster ∈ run, p cluster = false) ∨ ∀ next ∈ more.head?, p next = false) :
    (run ++ more).takeWhile p = run.takeWhile p ∧
      (run ++ more).dropWhile p = run.dropWhile p ++ more := by
  induction run with
  | nil =>
      have atOnce : ∀ next ∈ more.head?, p next = false := by simpa using stops
      cases more with
      | nil => exact ⟨rfl, rfl⟩
      | cons next others => simp [atOnce next rfl]
  | cons cluster rest inductionHypothesis =>
      cases goesOn : p cluster with
      | false => simp [goesOn]
      | true =>
          have later := inductionHypothesis (by simpa [goesOn] using stops)
          simp [goesOn, later]

/-- A token with more behind it. -/
def Lexeme.followedBy (lexeme : Lexeme) (more : List Cluster) : Lexeme :=
  ⟨lexeme.kind, lexeme.spelling, lexeme.rest ++ more⟩

/-- What follows does not matter to a symbol, unless it is the second of its pair. -/
theorem pairing_followedBy
    {first second : Cluster}
    {alone together : Token.Kind}
    {more : List Cluster}
    (apart : ∀ next ∈ more.head?, next ≠ second)
    (rest : List Cluster) :
    pairing first second alone together (rest ++ more) =
      (pairing first second alone together rest).followedBy more := by
  cases rest with
  | cons next others =>
      simp only [List.cons_append, pairing]
      split <;> rfl
  | nil =>
      cases more with
      | nil => rfl
      | cons next others => simp [pairing, apart next rfl, Lexeme.followedBy]

/-- What follows does not matter to a string that is closed. -/
theorem stringLexeme_followedBy
    {rest : List Cluster}
    (closed : Symbol.speech ∈ rest)
    (more : List Cluster) :
    stringLexeme (rest ++ more) = (stringLexeme rest).followedBy more := by
  have stops : ∃ cluster ∈ rest, decide (cluster ≠ Symbol.speech) = false := ⟨_, closed, by simp⟩
  obtain ⟨taken, dropped⟩ := takeWhile_stops rest more (.inl stops)
  simp only [stringLexeme, taken, dropped]
  cases isRest : rest.dropWhile (· ≠ Symbol.speech) with
  | nil => simpa using List.dropWhile_eq_nil_iff.mp isRest _ closed
  | cons close others => rfl

/-- A blank ends every token but a string without an end. -/
theorem lexeme_followedBy
    {first : Cluster}
    {rest more : List Cluster}
    (closed : first = Symbol.speech → Symbol.speech ∈ rest)
    (blank : ∀ next ∈ more.head?, Symbol.isBlank next) :
    lexeme first (rest ++ more) = (lexeme first rest).followedBy more := by
  have apart (cluster : Cluster) (notBlank : Symbol.isBlank cluster = false) :
      ∀ next ∈ more.head?, next ≠ cluster := by
    rintro next isNext rfl
    rw [blank next isNext] at notBlank
    cases notBlank
  have endsName : ∀ next ∈ more.head?, continuesName next = false := by
    intro next isNext
    simp [continuesName, blank next isNext]
  have endsNumber : ∀ next ∈ more.head?, continuesNumber next = false := by
    intro next isNext
    have notPoint := apart Symbol.decimalPoint (by decide) next isNext
    cases shows : Symbol.digit? next with
    | none => simp [continuesNumber, shows, notPoint]
    | some digit =>
        obtain ⟨rfl, isDigit⟩ := eq_keycap_of_digit? shows
        have starts := (lexeme_keycap isDigit []).1
        exact absurd (blank _ isNext) (by simp [starts.notBlank])
  obtain ⟨takenName, droppedName⟩ := takeWhile_stops rest more (.inr endsName)
  obtain ⟨takenNumber, droppedNumber⟩ := takeWhile_stops rest more (.inr endsNumber)
  simp only [lexeme, takenName, droppedName, takenNumber, droppedNumber]
  split
  · exact pairing_followedBy (apart _ (by decide)) rest
  · split
    · exact pairing_followedBy (apart _ (by decide)) rest
    · split
      · rename_i isSpeech
        exact stringLexeme_followedBy (closed isSpeech) more
      · split
        · rfl
        · split <;> rfl

/-! ## Two texts with a line feed between them -/

/-- Only what is behind the gap matters. -/
theorem tokens_of_skipGap {first second : Cursor} (same : first.skipGap = second.skipGap) :
    tokens first = tokens second :=
  tokens_congr (by simp only [Cursor.next, same])

/-- A cursor in front of a gap and a token. -/
theorem tokens_of_lexeme
    {whole taken others rest spelling : List Cluster}
    {first : Cluster}
    {kind : Token.Kind}
    (isGap : gap false [] whole = (taken, first :: others))
    (isLexeme : lexeme first others = ⟨kind, spelling, rest⟩)
    (offset : Nat)
    (position : Position) :
    tokens ⟨whole, offset, position⟩ =
      ⟨kind, ⟨offset + byteSize taken, offset + byteSize (taken ++ spelling)⟩,
        position.afterAll taken⟩ ::
      tokens ⟨rest, offset + byteSize (taken ++ spelling),
        position.afterAll (taken ++ spelling)⟩ := by
  have next : Cursor.next ⟨whole, offset, position⟩ =
      (⟨kind, ⟨offset + byteSize taken, offset + byteSize (taken ++ spelling)⟩,
        position.afterAll taken⟩,
      ⟨rest, offset + byteSize (taken ++ spelling), position.afterAll (taken ++ spelling)⟩) := by
    simp [Cursor.next, Cursor.skipGap, isGap, Cursor.beyond, isLexeme, foldl_byteSize,
      Position.afterAll_append, Nat.add_assoc]
  have notEnd := lexeme_kind_ne_endOfInput first others
  rw [isLexeme] at notEnd
  rw [tokens_of_more (by rw [next]; exact notEnd), next]

/-- The last token of a text, if there is any. -/
def lastToken? (tokens : List Token) : Option Token := tokens.dropLast.getLast?

theorem lastToken?_cons
    {token last : Token}
    {rest : List Token}
    (isLast : lastToken? rest = some last) :
    lastToken? (token :: rest) = some last := by
  cases rest with
  | nil => cases isLast
  | cons second others =>
      rw [lastToken?, List.dropLast_cons_of_ne_nil (List.cons_ne_nil _ _), List.getLast?_cons]
      rw [lastToken?] at isLast
      simp [isLast]

/-- A speech balloon that nothing closes makes a string the last token. -/
theorem mem_of_closed
    {run taken others : List Cluster}
    {offset : Nat}
    {position : Position}
    (isGap : gap false [] run = (taken, Symbol.speech :: others))
    (closed : ∀ last ∈ lastToken? (tokens ⟨run, offset, position⟩),
      ∀ text, last.kind ≠ .string text) :
    Symbol.speech ∈ others := by
  by_contra absent
  have inside : ∀ cluster ∈ others, decide (cluster ≠ Symbol.speech) = true := by
    intro cluster present
    rw [decide_eq_true_eq]
    rintro rfl
    exact absent present
  have isLexeme : lexeme Symbol.speech others =
      ⟨.string (Cluster.join others), Symbol.speech :: others, []⟩ := by
    show stringLexeme others = _
    rw [stringLexeme, List.takeWhile_eq_self_iff.mpr inside, List.dropWhile_eq_nil_iff.mpr inside]
  rw [tokens_of_lexeme isGap isLexeme, tokens_of_end rfl] at closed
  exact closed _ rfl _ rfl

/-- A line end between two runs of clusters keeps their tokens apart, unless the first of them
leaves a string open. -/
theorem tokens_join
    {tail : List Cluster}
    {newline : Cluster}
    (lineEnd : Text.LineEnd tail newline)
    (run more : List Cluster)
    (offset : Nat)
    (position : Position)
    (closed : ∀ last ∈ lastToken? (tokens ⟨run ++ tail, offset, position⟩),
      ∀ text, last.kind ≠ .string text) :
    tokens ⟨run ++ newline :: more, offset, position⟩ =
      (tokens ⟨run ++ tail, offset, position⟩).dropLast ++
        tokens ⟨more, offset + byteSize (run ++ [newline]),
          position.afterAll (run ++ [newline])⟩ := by
  generalize size : run.length = length
  induction length using Nat.strong_induction_on generalizing run offset position with
  | _ length inductionHypothesis =>
      rcases gap_append false [] run with ⟨inside, allGap⟩ |
        ⟨taken, first, others, split, starts, stops⟩
      · rw [List.append_nil] at allGap
        obtain ⟨nothing, goesOn⟩ := gap_lineEnd lineEnd inside run.reverse
        have noToken : tokens ⟨run ++ tail, offset, position⟩ =
            [(Cursor.next ⟨run ++ tail, offset, position⟩).1] := by
          refine tokens_of_end ?_
          simp [Cursor.next, Cursor.skipGap, Cursor.beyond, allGap, nothing, Token.endOfInput]
        rw [noToken]
        refine tokens_of_skipGap ?_
        have newlineSize : newline.byteSize = byteSize [newline] := by
          simp [byteSize, Cluster.byteSize_eq]
        simp [Cursor.skipGap, Cursor.beyond, allGap, goesOn, gap_skipped false (newline :: _),
          foldl_byteSize, newlineSize, Position.afterAll_append, Nat.add_assoc]
      · simp only [List.reverse_nil, List.nil_append] at stops
        have firstClosed : first = Symbol.speech → Symbol.speech ∈ others := by
          rintro rfl
          have inWhole := mem_of_closed (stops tail) closed
          have notInTail : Symbol.speech ∉ tail := by cases lineEnd <;> decide
          exact (List.mem_append.mp inWhole).resolve_right notInTail
        have blank : Symbol.isBlank newline ∧ ∀ next ∈ tail.head?, Symbol.isBlank next := by
          cases lineEnd <;> decide
        have before := tokens_of_lexeme (stops tail) (lexeme_followedBy firstClosed blank.2)
          offset position
        have after := tokens_of_lexeme (stops (newline :: more))
          (lexeme_followedBy firstClosed (by simpa using blank.1)) offset position
        have whole : run = taken ++ (lexeme first others).spelling ++
            (lexeme first others).rest := by
          rw [split, (lexeme_cuts starts others).run_eq, List.append_assoc]
        have shorter : (lexeme first others).rest.length < length := by
          have shorter := length_lexeme_le first others
          rw [← size, split, List.length_append, List.length_cons]
          omega
        have later := inductionHypothesis _ shorter (lexeme first others).rest
          (offset + byteSize (taken ++ (lexeme first others).spelling))
          (position.afterAll (taken ++ (lexeme first others).spelling)) (by
            intro last isLast
            rw [before] at closed
            exact closed last (lastToken?_cons isLast)) rfl
        rw [before, after, later, List.dropLast_cons_of_ne_nil (tokens_ne_nil _)]
        conv => rhs; rw [whole]
        simp [List.append_assoc, Position.afterAll_append, Nat.add_assoc]

end Scan

/-- The number of lines of a text that end. -/
def lineEnds (text : String) : Nat := (Text.clusters text.toList).countP Cluster.isNewline

/-- The tokens of two texts with a line feed between them are those of the first, without its
end, and those of the second, further down. -/
theorem tokenize_join
    (first second : String)
    (closed : ∀ last ∈ Scan.lastToken? (tokenize first), ∀ text, last.kind ≠ .string text) :
    tokenize (first ++ "\n" ++ second) =
      (tokenize first).dropLast ++ (tokenize second).map
        (Token.below (first ++ "\n").utf8ByteSize (lineEnds (first ++ "\n"))) := by
  obtain ⟨run, tail, newline, lineEnd, without, within⟩ :=
    Text.clusters_concat_lineFeed first.toList
  have isNewline : newline.isNewline := by cases lineEnd <;> rfl
  have feed : (first ++ "\n").toList = first.toList ++ ['\n'] := by simp
  have whole : Text.clusters (first ++ "\n" ++ second).toList =
      run ++ newline :: Text.clusters second.toList := by
    rw [String.toList_append, feed, List.append_assoc, List.singleton_append,
      Text.clusters_append_lineFeed, within, List.append_assoc, List.singleton_append]
  have size : Scan.byteSize (run ++ [newline]) = (first ++ "\n").utf8ByteSize := by
    rw [← Scan.byteSize_clusters, feed, within]
  have moved : Position.origin.afterAll (run ++ [newline]) =
      Position.origin.below (lineEnds (first ++ "\n")) := by
    rw [Position.afterAll_newline isNewline, ← within, ← feed]
    rfl
  have joined := Scan.tokens_join lineEnd run (Text.clusters second.toList) 0 .origin
    (by rw [← without]; exact closed)
  rw [← whole, ← without, size, moved] at joined
  have below := Scan.tokens_below (first ++ "\n").utf8ByteSize (lineEnds (first ++ "\n"))
    (.ofText second)
  exact joined.trans (congrArg _ below)

end Pictogram
