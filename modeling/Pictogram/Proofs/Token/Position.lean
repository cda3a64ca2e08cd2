import Pictogram.Proofs.Token.Joining
import Mathlib.Data.List.DropRight

/-!
# Where tokens stand

The scanner moves its position on with every cluster that it takes.  So the position of a
token is that of its start in the whole source: its line is known from the newlines before
it, and its column from the clusters behind the last of them.
-/

namespace Pictogram

/-- The column behind a run of clusters that begins a text. -/
theorem Position.column_afterAll_origin (run : List Cluster) :
    (origin.afterAll run).column =
      1 + (run.rtakeWhile fun cluster => !cluster.isNewline).length := by
  induction run using List.reverseRecOn with
  | nil => rfl
  | append_singleton run cluster inductionHypothesis =>
      rw [afterAll_append, afterAll_cons, afterAll_nil, List.rtakeWhile_concat, after]
      cases newline : cluster.isNewline with
      | true => simp
      | false => simp [inductionHypothesis, Nat.add_assoc]

namespace Scan

/-! ## The clusters before an offset -/

/-- The clusters of a run that end at an offset or before it. -/
def endingBy (offset : Nat) : List Cluster → List Cluster
  | [] => []
  | cluster :: rest =>
    if cluster.byteSize ≤ offset then cluster :: endingBy (offset - cluster.byteSize) rest else []

/-- The clusters of a source that stand wholly before an offset. -/
def clustersBefore (source : String) (offset : Nat) : List Cluster :=
  endingBy offset (Text.clusters source.toList)

/-- The clusters that end by the size of a run are that run. -/
theorem endingBy_byteSize
    {after : List Cluster}
    (filled : ∀ cluster ∈ after, cluster ≠ [])
    (before : List Cluster) :
    endingBy (byteSize before) (before ++ after) = before := by
  induction before with
  | nil =>
      cases after with
      | nil => rfl
      | cons cluster rest =>
          have positive : cluster.byteSize ≠ 0 := by
            rw [cluster.byteSize_eq]
            exact mt String.utf8Len_eq_zero.mp (filled cluster List.mem_cons_self)
          exact if_neg (mt Nat.le_zero.mp positive)
  | cons cluster rest inductionHypothesis =>
      have size : byteSize (cluster :: rest) = cluster.byteSize + byteSize rest := by
        simp [byteSize, cluster.byteSize_eq]
      rw [List.cons_append, endingBy, size, if_pos (Nat.le_add_right _ _), Nat.add_sub_cancel_left,
        inductionHypothesis]

/-- Between two clusters of a source, the clusters on the left are those before the offset. -/
theorem clustersBefore_byteSize
    {source : String}
    {before after : List Cluster}
    (cut : Text.clusters source.toList = before ++ after) :
    clustersBefore source (byteSize before) = before := by
  rw [clustersBefore, cut]
  refine endingBy_byteSize (fun cluster present => ?_) before
  exact Text.clusters_ne_nil source.toList cluster (by simp [cut, present])

/-! ## Cursors in a source -/

/-- A cursor stands behind a run of clusters that its source begins with. -/
structure Cursor.Behind (cursor : Cursor) (source : String) (before : List Cluster) : Prop where
  /-- What is left of the source is what follows the run. -/
  cut : Text.clusters source.toList = before ++ cursor.rest
  /-- The offset is the number of bytes of the run. -/
  offset_eq : cursor.offset = byteSize before
  /-- The position is the one that the run leads to. -/
  position_eq : cursor.position = Position.origin.afterAll before

namespace Cursor.Behind

variable {cursor : Cursor} {source : String} {before : List Cluster}

theorem ofText (source : String) : (Cursor.ofText source).Behind source [] := ⟨rfl, rfl, rfl⟩

/-- A cursor that takes a run of clusters stands behind it. -/
theorem beyond
    (behind : cursor.Behind source before)
    {taken rest : List Cluster}
    (split : cursor.rest = taken ++ rest) :
    (cursor.beyond taken rest).Behind source (before ++ taken) where
  cut := by rw [behind.cut, split, List.append_assoc]; rfl
  offset_eq := by
    simp only [Cursor.beyond, foldl_byteSize, behind.offset_eq, byteSize_append]
  position_eq := by
    simp only [Cursor.beyond, behind.position_eq, Position.afterAll_append]

/-- One token: the scanner takes a gap, notes where the token starts, and takes the token. -/
theorem next (behind : cursor.Behind source before) :
    ∃ start further, Text.clusters source.toList = start ++ further ∧
      cursor.next.1.span.start = byteSize start ∧
      cursor.next.1.position = Position.origin.afterAll start ∧
      ∃ taken, cursor.next.2.Behind source taken := by
  obtain ⟨skipped, rest, isGap, split, starts, -⟩ := gap_eq false [] cursor.rest
  have skipGap : cursor.skipGap = cursor.beyond skipped rest := by
    rw [Cursor.skipGap, isGap]
    rfl
  have here := behind.beyond split
  refine ⟨before ++ skipped, rest, here.cut, ?_⟩
  cases rest with
  | nil =>
      have atEnd : cursor.next =
          (.endOfInput (cursor.beyond skipped []).offset (cursor.beyond skipped []).position,
            cursor.beyond skipped []) := by
        rw [Cursor.next, skipGap]
        rfl
      rw [atEnd]
      exact ⟨here.offset_eq, here.position_eq, _, here⟩
  | cons first others =>
      have cuts := lexeme_cuts (starts first rfl) others
      have later : ((cursor.beyond skipped (first :: others)).beyond (lexeme first others).spelling
          (lexeme first others).rest).Behind source _ := here.beyond cuts.run_eq
      have found : cursor.next =
          (⟨(lexeme first others).kind, ⟨(cursor.beyond skipped (first :: others)).offset,
              ((cursor.beyond skipped (first :: others)).beyond (lexeme first others).spelling
                (lexeme first others).rest).offset⟩,
            (cursor.beyond skipped (first :: others)).position⟩,
          (cursor.beyond skipped (first :: others)).beyond (lexeme first others).spelling
            (lexeme first others).rest) := by
        rw [Cursor.next, skipGap]
        rfl
      rw [found]
      exact ⟨here.offset_eq, here.position_eq, _, later⟩

/-- All tokens: each starts between two clusters of the source, at the position there. -/
theorem tokens
    {token : Token}
    (behind : cursor.Behind source before)
    (present : token ∈ Scan.tokens cursor) :
    ∃ start further, Text.clusters source.toList = start ++ further ∧
      token.span.start = byteSize start ∧
      token.position = Position.origin.afterAll start := by
  generalize size : cursor.rest.length = length
  induction length using Nat.strong_induction_on generalizing cursor before with
  | _ length inductionHypothesis =>
      obtain ⟨start, further, cut, startsAt, standsAt, taken, later⟩ := behind.next
      by_cases isEnd : cursor.next.1.kind = .endOfInput
      · rw [tokens_of_end isEnd, List.mem_singleton] at present
        rw [present]
        exact ⟨start, further, cut, startsAt, standsAt⟩
      · rw [tokens_of_more isEnd, List.mem_cons] at present
        rcases present with rfl | inRest
        · exact ⟨start, further, cut, startsAt, standsAt⟩
        · exact inductionHypothesis _ (size ▸ cursor.length_next_lt isEnd) later inRest rfl

end Cursor.Behind

/-- Every token of a source, its end among them, starts between two clusters.  Its line is one
more than the number of newlines before it, and its column one more than the number of clusters
between the last of these newlines, or else the beginning of the source, and its start. -/
theorem position_of_mem_tokenize
    {source : String}
    {token : Token}
    (present : token ∈ tokenize source) :
    let before := clustersBefore source token.span.start
    byteSize before = token.span.start ∧
      token.position.line = 1 + before.countP Cluster.isNewline ∧
      token.position.column = 1 + (before.rtakeWhile fun cluster => !cluster.isNewline).length := by
  obtain ⟨start, further, cut, startsAt, standsAt⟩ :=
    (Cursor.Behind.ofText source).tokens present
  intro before
  obtain rfl : before = start := by
    rw [show before = clustersBefore source token.span.start from rfl, startsAt,
      clustersBefore_byteSize cut]
  refine ⟨startsAt.symm, ?_, ?_⟩
  · rw [standsAt, Position.line_afterAll]
    rfl
  · rw [standsAt, Position.column_afterAll_origin]

/-- A source with a comment on its first line and a string that reaches from its second line to
its third. -/
def linedSource : String := "🪧a\r\n 💬\n💬📢"

/-- The clusters of the source. -/
def linedClusters : List Cluster :=
  [Symbol.sign, ['a'], ['\r', '\n'], [' '], Symbol.speech, ['\n'], Symbol.speech,
    Symbol.loudspeaker]

theorem tokenize_linedSource :
    tokenize linedSource = [⟨.string "\n", ⟨8, 17⟩, ⟨2, 2⟩⟩, ⟨.printWord, ⟨17, 21⟩, ⟨3, 2⟩⟩,
      .endOfInput 21 ⟨3, 3⟩] :=
  tokenize_of_yields (by decide +kernel)

/-- The last symbol of the source stands behind two newlines, one that ends a comment and one
inside a string, and the end of the source stands behind the symbol. -/
theorem position_of_mem_tokenize_linedSource :
    (⟨.printWord, ⟨17, 21⟩, ⟨3, 2⟩⟩ : Token) ∈ tokenize linedSource ∧
      clustersBefore linedSource 17 = linedClusters.dropLast ∧
      3 = 1 + linedClusters.dropLast.countP Cluster.isNewline ∧
      2 = 1 + (linedClusters.dropLast.rtakeWhile fun cluster => !cluster.isNewline).length ∧
    Token.endOfInput 21 ⟨3, 3⟩ ∈ tokenize linedSource ∧
      clustersBefore linedSource 21 = linedClusters ∧
      3 = 1 + linedClusters.countP Cluster.isNewline ∧
      3 = 1 + (linedClusters.rtakeWhile fun cluster => !cluster.isNewline).length := by
  have symbol : (⟨.printWord, ⟨17, 21⟩, ⟨3, 2⟩⟩ : Token) ∈ tokenize linedSource := by
    rw [tokenize_linedSource]
    decide
  have ending : Token.endOfInput 21 ⟨3, 3⟩ ∈ tokenize linedSource := by
    rw [tokenize_linedSource]
    decide
  have beforeSymbol : clustersBefore linedSource 17 = linedClusters.dropLast := by decide +kernel
  have beforeEnd : clustersBefore linedSource 21 = linedClusters := by decide +kernel
  obtain ⟨-, line, column⟩ := position_of_mem_tokenize symbol
  obtain ⟨-, lastLine, lastColumn⟩ := position_of_mem_tokenize ending
  rw [show (Token.mk .printWord ⟨17, 21⟩ ⟨3, 2⟩).span.start = 17 from rfl, beforeSymbol]
    at line column
  rw [show (Token.endOfInput 21 ⟨3, 3⟩).span.start = 21 from rfl, beforeEnd] at lastLine lastColumn
  exact ⟨symbol, beforeSymbol, line, column, ending, beforeEnd, lastLine, lastColumn⟩

end Scan
end Pictogram
