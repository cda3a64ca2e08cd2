import Pictogram.Token

/-!
# From clusters to tokens

Between two tokens stands a gap: blank clusters, decimal points that belong to
no number, and comments.  `Scan.gap` takes the gap off the front of a run of
clusters and `Scan.lexeme` the clusters of the next token; both say which
clusters they took and which they left, and a `Cursor` keeps the byte offset
and the position of what is left.
-/

namespace Pictogram
namespace Scan

/--
The gap in front of the next token and what follows it.  `inComment` says
whether the run starts inside a comment, and `skipped` holds the clusters of
the gap found so far, the last one first.
-/
def gap (inComment : Bool) (skipped : List Cluster) :
    List Cluster → List Cluster × List Cluster
  | [] => (skipped.reverse, [])
  | cluster :: rest =>
    if inComment then gap (!cluster.isNewline) (cluster :: skipped) rest
    else if Symbol.isBlank cluster || cluster = Symbol.decimalPoint then
      gap false (cluster :: skipped) rest
    else if cluster = Symbol.sign then gap true (cluster :: skipped) rest
    else (skipped.reverse, cluster :: rest)

/-- A token's kind, the clusters that spell it, and what follows them. -/
structure Lexeme where
  /-- What the token is. -/
  kind : Token.Kind
  /-- The clusters that spell it. -/
  spelling : List Cluster
  /-- The clusters after it. -/
  rest : List Cluster

/-- Whether the cluster continues a number. -/
def continuesNumber (cluster : Cluster) : Bool :=
  (Symbol.digit? cluster).isSome || cluster = Symbol.decimalPoint

/-- Whether the cluster continues an identifier. -/
def continuesName (cluster : Cluster) : Bool :=
  !(Symbol.isReserved cluster || Symbol.isBlank cluster)

/-- The digits and points that a run of keycaps and points shows. -/
def numberText (run : List Cluster) : String :=
  String.ofList (run.map fun cluster => (Symbol.digit? cluster).getD '.')

/-- A symbol that makes another kind together with the symbol `second`. -/
def pairing
    (first second : Cluster)
    (alone together : Token.Kind) : List Cluster → Lexeme
  | next :: rest =>
    if next = second then ⟨together, [first, next], rest⟩ else ⟨alone, [first], next :: rest⟩
  | [] => ⟨alone, [first], []⟩

/-- A string: the clusters up to the next speech balloon, or all of them if
there is none. -/
def stringLexeme (run : List Cluster) : Lexeme :=
  let content := run.takeWhile (· ≠ Symbol.speech)
  let kind := .string (Cluster.join content)
  match run.dropWhile (· ≠ Symbol.speech) with
  | [] => ⟨kind, Symbol.speech :: content, []⟩
  | close :: rest => ⟨kind, Symbol.speech :: content ++ [close], rest⟩

/-- The token that begins with the cluster `first`. -/
def lexeme (first : Cluster) (rest : List Cluster) : Lexeme :=
  if first = Symbol.balance then
    pairing first Symbol.rightHand .equal .lessOrEqual rest
  else if first = Symbol.leftHand then
    pairing first Symbol.balance .greaterThan .greaterOrEqual rest
  else if first = Symbol.speech then stringLexeme rest
  else if (Symbol.digit? first).isSome then
    let run := first :: rest.takeWhile continuesNumber
    ⟨.number (numberText run), run, rest.dropWhile continuesNumber⟩
  else match Token.Kind.ofCluster? first with
    | some kind => ⟨kind, [first], rest⟩
    | none =>
      let run := first :: rest.takeWhile continuesName
      ⟨.identifier (Cluster.join run), run, rest.dropWhile continuesName⟩

/-- What is left of a source text, and where it stands. -/
structure Cursor where
  /-- The clusters not read yet. -/
  rest : List Cluster
  /-- The byte offset of the first of them. -/
  offset : Nat
  /-- The position of the first of them. -/
  position : Position

namespace Cursor

/-- The cursor in front of a whole text. -/
def ofText (text : String) : Cursor :=
  ⟨Text.clusters text.toList, 0, .origin⟩

/-- The cursor after the run `taken`, which leaves `rest`. -/
def beyond (cursor : Cursor) (taken rest : List Cluster) : Cursor where
  rest := rest
  offset := taken.foldl (fun offset cluster => offset + cluster.byteSize) cursor.offset
  position := cursor.position.afterAll taken

/-- The cursor after the gap that it stands in front of. -/
def skipGap (cursor : Cursor) : Cursor :=
  let (skipped, rest) := gap false [] cursor.rest
  cursor.beyond skipped rest

/-- The next token and the cursor after it.  At the end of the text this is
the end of the input, again and again. -/
def next (cursor : Cursor) : Token × Cursor :=
  let here := cursor.skipGap
  match here.rest with
  | [] => (.endOfInput here.offset here.position, here)
  | first :: rest =>
    let found := lexeme first rest
    let later := here.beyond found.spelling found.rest
    (⟨found.kind, ⟨here.offset, later.offset⟩, here.position⟩, later)

end Cursor

theorem length_gap_le
    (inComment : Bool)
    (skipped run : List Cluster) :
    (gap inComment skipped run).2.length ≤ run.length := by
  induction run generalizing inComment skipped with
  | nil => simp [gap]
  | cons cluster rest inductionHypothesis =>
    unfold gap
    split
    · exact Nat.le_succ_of_le (inductionHypothesis ..)
    · split
      · exact Nat.le_succ_of_le (inductionHypothesis ..)
      · split
        · exact Nat.le_succ_of_le (inductionHypothesis ..)
        · simp

theorem length_dropWhile_le {α : Type} (p : α → Bool) (list : List α) :
    (list.dropWhile p).length ≤ list.length := by
  induction list with
  | nil => simp
  | cons head tail inductionHypothesis =>
    rw [List.dropWhile_cons]
    split
    · exact Nat.le_succ_of_le inductionHypothesis
    · exact Nat.le_refl _

theorem length_pairing_le
    (first second : Cluster)
    (alone together : Token.Kind)
    (run : List Cluster) :
    (pairing first second alone together run).rest.length ≤ run.length := by
  cases run with
  | nil => simp [pairing]
  | cons next rest =>
    simp only [pairing]
    split <;> simp

theorem length_stringLexeme_le (run : List Cluster) :
    (stringLexeme run).rest.length ≤ run.length := by
  have shorter := length_dropWhile_le (· ≠ Symbol.speech) run
  unfold stringLexeme
  split
  · simp
  · next close rest equal =>
    rw [equal] at shorter
    simp only [List.length_cons] at shorter
    simpa using Nat.le_of_succ_le shorter

/-- A token takes its first cluster at least. -/
theorem length_lexeme_le (first : Cluster) (rest : List Cluster) :
    (lexeme first rest).rest.length ≤ rest.length := by
  unfold lexeme
  split
  · exact length_pairing_le ..
  · split
    · exact length_pairing_le ..
    · split
      · exact length_stringLexeme_le rest
      · split
        · exact length_dropWhile_le ..
        · split
          · exact Nat.le_refl _
          · exact length_dropWhile_le ..

/-- The kinds the table of symbols gives are never the end of the input. -/
theorem ofCluster?_ne_endOfInput (cluster : Cluster) :
    Token.Kind.ofCluster? cluster ≠ some .endOfInput := by
  rw [Ne, Token.Kind.ofCluster?_eq_some_iff]
  intro isSymbol
  cases isSymbol

/-- A cluster never spells the end of the input. -/
theorem lexeme_kind_ne_endOfInput (first : Cluster) (rest : List Cluster) :
    (lexeme first rest).kind ≠ .endOfInput := by
  unfold lexeme
  split
  · cases rest <;> simp only [pairing] <;> (try split) <;> simp
  · split
    · cases rest <;> simp only [pairing] <;> (try split) <;> simp
    · split
      · unfold stringLexeme
        split <;> simp
      · split
        · simp
        · split
          · next kind found =>
            intro equal
            exact ofCluster?_ne_endOfInput first (by rw [found]; exact congrArg some equal)
          · simp

/-- A token that is not the end of the input leaves less behind. -/
theorem Cursor.length_next_lt
    (cursor : Cursor)
    (more : cursor.next.1.kind ≠ .endOfInput) :
    cursor.next.2.rest.length < cursor.rest.length := by
  have skipped := length_gap_le false [] cursor.rest
  unfold Cursor.next at more ⊢
  simp only [Cursor.skipGap, Cursor.beyond] at more ⊢
  split
  · next nothing => simp [nothing, Token.endOfInput] at more
  · next first rest equal =>
    rw [equal] at skipped
    have shorter := length_lexeme_le first rest
    simp only [List.length_cons] at skipped
    simp only
    omega

/-- The tokens from the cursor on, after the tokens `done`. -/
def tokensFrom (cursor : Cursor) (done : Array Token) : Array Token :=
  let found := cursor.next
  if found.1.kind ≠ .endOfInput then tokensFrom found.2 (done.push found.1)
  else done.push found.1
termination_by cursor.rest.length
decreasing_by exact cursor.length_next_lt (by assumption)

end Scan

/-- The tokens of a source text; the last one is the end of the input. -/
def tokenize (source : String) : List Token :=
  (Scan.tokensFrom (.ofText source) #[]).toList

end Pictogram
