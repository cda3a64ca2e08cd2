import Pictogram.Proofs.Token.Spelling
import Mathlib.Data.String.Basic

/-!
# Tokens cover their source

The gaps and the spellings of the tokens, one after another, are the clusters of
the source.  What the scanner says of a token in bytes, its span, cuts just the
clusters that spell it out of the source.
-/

namespace Pictogram

/-! ## Clusters and bytes -/

/-- No cluster is empty. -/
theorem Text.segment_ne_nil
    {done : List Cluster}
    {current : List Char}
    (begun : current ≠ [])
    (filled : ∀ cluster ∈ done, cluster ≠ [])
    (trail : Trail)
    (rest : List Char) :
    ∀ cluster ∈ segment done current trail rest, cluster ≠ [] := by
  induction rest generalizing done current trail with
  | nil =>
      intro cluster present
      rcases List.mem_cons.mp (List.mem_reverse.mp present) with rfl | earlier
      · simpa using begun
      · exact filled cluster earlier
  | cons character rest inductionHypothesis =>
      unfold segment
      split
      · exact inductionHypothesis (by simp) filled _
      · refine inductionHypothesis (by simp) ?_ _
        exact List.forall_mem_cons.mpr ⟨by simpa using begun, filled⟩

/-- No cluster of a text is empty. -/
theorem Text.clusters_ne_nil (text : List Char) : ∀ cluster ∈ clusters text, cluster ≠ [] := by
  cases text with
  | nil => simp
  | cons character rest => exact segment_ne_nil (by simp) (by simp) _ rest

/-- A cluster has as many bytes as its characters. -/
theorem Cluster.byteSize_eq (cluster : Cluster) : cluster.byteSize = String.utf8Len cluster := by
  have folded (total : Nat) : cluster.foldl (fun total c => total + c.utf8Size) total =
      total + String.utf8Len cluster := by
    induction cluster generalizing total with
    | nil => rfl
    | cons character rest inductionHypothesis =>
        rw [List.foldl_cons, inductionHypothesis, String.utf8Len_cons]
        omega
  simp [byteSize, folded]

namespace Scan

/-- The number of bytes of a run of clusters. -/
def byteSize (run : List Cluster) : Nat := String.utf8Len run.flatten

@[simp] theorem byteSize_nil : byteSize [] = 0 := rfl

@[simp] theorem byteSize_append (first second : List Cluster) :
    byteSize (first ++ second) = byteSize first + byteSize second := by
  simp [byteSize]

theorem foldl_byteSize (run : List Cluster) (offset : Nat) :
    run.foldl (fun offset cluster => offset + cluster.byteSize) offset = offset + byteSize run := by
  induction run generalizing offset with
  | nil => rfl
  | cons cluster rest inductionHypothesis =>
      rw [List.foldl_cons, inductionHypothesis, cluster.byteSize_eq]
      simp [byteSize, Nat.add_assoc]

/-- The size of a source is that of its clusters. -/
theorem byteSize_clusters (source : String) :
    byteSize (Text.clusters source.toList) = source.utf8ByteSize := by
  rw [byteSize, Text.flatten_clusters, ← String.utf8ByteSize_ofList, String.ofList_toList]

end Scan

/-- A place between two clusters of a source, or at one of its ends. -/
def IsBoundary (source : String) (offset : Nat) : Prop :=
  ∃ before after, Text.clusters source.toList = before ++ after ∧ offset = Scan.byteSize before

/-- A span holds a run of clusters of a source. -/
structure Span.Holds (span : Span) (source : String) (run : List Cluster) : Prop where
  /-- The span begins and ends with the run. -/
  cut : ∃ before after, Text.clusters source.toList = before ++ run ++ after ∧
    span = ⟨Scan.byteSize before, Scan.byteSize (before ++ run)⟩
  /-- The text of the span is that of the run. -/
  slice_eq : span.slice source = Cluster.join run

/-- A run of clusters is held by the span between its two ends. -/
theorem Span.holds_of_cut
    (source : String)
    (before run after : List Cluster)
    (cut : Text.clusters source.toList = before ++ run ++ after) :
    Span.Holds ⟨Scan.byteSize before, Scan.byteSize (before ++ run)⟩ source run where
  cut := ⟨before, after, cut, rfl⟩
  slice_eq := by
    have whole : source = String.ofList (before.flatten ++ run.flatten ++ after.flatten) := by
      rw [← List.flatten_append, ← List.flatten_append, ← cut, Text.flatten_clusters,
        String.ofList_toList]
    rw [Span.slice, Scan.byteSize_append, whole]
    exact String.extract_of_valid before.flatten run.flatten after.flatten

namespace Span.Holds

variable {span : Span} {source : String} {run : List Cluster}

/-- A span that holds clusters lies between boundaries of them. -/
theorem boundaries (holds : span.Holds source run) :
    IsBoundary source span.start ∧ IsBoundary source span.stop := by
  obtain ⟨before, after, cut, rfl⟩ := holds.cut
  exact ⟨⟨before, run ++ after, by rw [cut, List.append_assoc], rfl⟩,
    before ++ run, after, cut, rfl⟩

theorem start_le (holds : span.Holds source run) : span.start ≤ span.stop := by
  obtain ⟨before, after, -, rfl⟩ := holds.cut
  simp

/-- A span that holds clusters lies in its source. -/
theorem stop_le (holds : span.Holds source run) : span.stop ≤ source.utf8ByteSize := by
  obtain ⟨before, after, cut, rfl⟩ := holds.cut
  show Scan.byteSize (before ++ run) ≤ source.utf8ByteSize
  rw [← Scan.byteSize_clusters, cut, Scan.byteSize_append (before ++ run)]
  exact Nat.le_add_right _ _

/-- A span that holds a cluster is not empty. -/
theorem start_lt (holds : span.Holds source run) (nonempty : run ≠ []) :
    span.start < span.stop := by
  obtain ⟨before, after, cut, rfl⟩ := holds.cut
  obtain ⟨first, rest, rfl⟩ := List.exists_cons_of_ne_nil nonempty
  have filled : first ≠ [] := by
    refine Text.clusters_ne_nil source.toList first ?_
    simp [cut]
  have positive : 0 < String.utf8Len first :=
    Nat.pos_of_ne_zero (mt String.utf8Len_eq_zero.mp filled)
  simp only [Scan.byteSize, List.flatten_append, List.flatten_cons, String.utf8Len_append]
  omega

end Span.Holds

namespace Scan

/-! ## Runs of the scanner -/

/-- Tokens that cover a run of clusters, which begins at an offset. -/
inductive Covers : Nat → List Cluster → List Token → Prop
  | last {offset : Nat} {skipped : List Cluster} {position : Position} :
      Gap True skipped →
      Covers offset skipped [.endOfInput (offset + byteSize skipped) position]
  | next
      {offset : Nat}
      {skipped spelling rest : List Cluster}
      {kind : Token.Kind}
      {position : Position}
      {tokens : List Token} :
      Gap False skipped →
      spelling ≠ [] →
      Spells (rest = []) kind spelling →
      Covers (offset + byteSize skipped + byteSize spelling) rest tokens →
      Covers offset (skipped ++ (spelling ++ rest))
        (⟨kind, ⟨offset + byteSize skipped, offset + byteSize skipped + byteSize spelling⟩,
          position⟩ :: tokens)

/-- A token is taken off the front of what is left of a source, unless only a gap is left. -/
theorem Cursor.next_cases (cursor : Cursor) :
    (∃ position later, Gap True cursor.rest ∧
      cursor.next = (.endOfInput (cursor.offset + byteSize cursor.rest) position, later)) ∨
    ∃ skipped spelling rest kind position later, Gap False skipped ∧ spelling ≠ [] ∧
      Spells (rest = []) kind spelling ∧
      cursor.rest = skipped ++ (spelling ++ rest) ∧
      cursor.next = (⟨kind, ⟨cursor.offset + byteSize skipped,
        cursor.offset + byteSize skipped + byteSize spelling⟩, position⟩, later) ∧
      later.rest = rest ∧
      later.offset = cursor.offset + byteSize skipped + byteSize spelling := by
  obtain ⟨skipped, rest, isGap, split, starts, goesOn⟩ := gap_eq false [] cursor.rest
  have here : cursor.skipGap = cursor.beyond skipped rest := by
    rw [Cursor.skipGap, isGap]
    rfl
  cases rest with
  | nil =>
      left
      rw [List.append_nil] at split
      refine ⟨cursor.position.afterAll skipped, cursor.beyond skipped [], ?_, ?_⟩
      · rw [split]
        exact Gap.mono goesOn fun _ => trivial
      · simp only [Cursor.next, here, Cursor.beyond, foldl_byteSize, split]
  | cons first others =>
      right
      have cuts := lexeme_cuts (starts first rfl) others
      refine ⟨skipped, (lexeme first others).spelling, (lexeme first others).rest,
        (lexeme first others).kind, cursor.position.afterAll skipped,
        (cursor.beyond skipped (first :: others)).beyond (lexeme first others).spelling
          (lexeme first others).rest,
        Gap.mono goesOn (List.cons_ne_nil first others), cuts.nonempty, cuts.spells, ?_, ?_, rfl,
        ?_⟩
      · rw [split, cuts.run_eq]
      · simp only [Cursor.next, here, Cursor.beyond, foldl_byteSize]
      · simp only [Cursor.beyond, foldl_byteSize]

/-- The tokens from a cursor on cover what is left of its source. -/
theorem tokensFrom_covers (cursor : Cursor) (done : Array Token) :
    ∃ tokens, tokensFrom cursor done = done ++ tokens.toArray ∧
      Covers cursor.offset cursor.rest tokens := by
  induction cursor, done using tokensFrom.induct with
  | case1 cursor done found more inductionHypothesis =>
      obtain ⟨tokens, made, covers⟩ := inductionHypothesis
      refine ⟨found.1 :: tokens, ?_, ?_⟩
      · rw [tokensFrom, if_pos more, made]
        simp [found]
      · rcases cursor.next_cases with ⟨position, later, gap, isNext⟩ |
          ⟨skipped, spelling, rest, kind, position, later, gap, nonempty, spells, split, isNext,
            laterRest, laterOffset⟩
        · exact absurd (congrArg (·.1.kind) isNext) more
        · simp only [found, isNext, laterRest, laterOffset] at covers ⊢
          rw [split]
          exact .next gap nonempty spells covers
  | case2 cursor done found isEnd =>
      refine ⟨[found.1], ?_, ?_⟩
      · rw [tokensFrom, if_neg isEnd]
        simp [found]
      · rcases cursor.next_cases with ⟨position, later, gap, isNext⟩ |
          ⟨skipped, spelling, rest, kind, position, later, gap, nonempty, spells, split, isNext,
            laterRest, laterOffset⟩
        · simp only [found, isNext]
          exact .last gap
        · refine absurd (not_not.mp isEnd) ?_
          simp only [found, isNext]
          exact spells.kind_ne_endOfInput

/-! ## What the tokens say of their source -/

/-- The offset behind tokens that follow an offset. -/
def stopAfter (offset : Nat) : List Token → Nat
  | [] => offset
  | token :: rest => stopAfter token.span.stop rest

/-- The texts of gaps and tokens from an offset to the end of a source, put together. -/
def putTogether (source : String) (offset : Nat) : List Token → String
  | [] => (Span.mk offset source.utf8ByteSize).slice source
  | token :: rest =>
    (Span.mk offset token.span.start).slice source ++ token.span.slice source ++
      putTogether source token.span.stop rest

/-- The tokens tell a source from an offset on.  The end of the input is not among them. -/
structure Faithful (source : String) (offset : Nat) (tokens : List Token) : Prop where
  /-- The end of the input comes only behind them. -/
  kinds : ∀ token ∈ tokens, token.kind ≠ .endOfInput
  /-- No token is empty. -/
  nonempty : ∀ token ∈ tokens, token.span.start < token.span.stop
  /-- The tokens lie in the source, from the offset on. -/
  inside : ∀ token ∈ tokens, offset ≤ token.span.start ∧ token.span.stop ≤ source.utf8ByteSize
  /-- The tokens stand one behind another. -/
  ordered : tokens.Pairwise fun first second => first.span.stop ≤ second.span.start
  /-- No token cuts a cluster. -/
  boundaries : ∀ token ∈ tokens,
    IsBoundary source token.span.start ∧ IsBoundary source token.span.stop
  /-- There is nothing but a gap in front of a token. -/
  gaps : ∀ before token after, tokens = before ++ token :: after →
    ∃ run, (Span.mk (stopAfter offset before) token.span.start).Holds source run ∧ Gap False run
  /-- There is nothing but a gap in front of the end of the input. -/
  lastGap : ∃ run,
    (Span.mk (stopAfter offset tokens) source.utf8ByteSize).Holds source run ∧ Gap True run
  /-- What a token holds spells its kind.  Only the last one may end with the source. -/
  spelled : ∀ before token after, tokens = before ++ token :: after →
    ∃ run, token.span.Holds source run ∧
      Spells (after = [] ∧ token.span.stop = source.utf8ByteSize) token.kind run

/-- Nothing but a gap is told by no token. -/
theorem faithful_nil
    {source : String}
    {offset : Nat}
    {skipped : List Cluster}
    (holds : (Span.mk offset source.utf8ByteSize).Holds source skipped)
    (gap : Gap True skipped) :
    Faithful source offset [] where
  kinds := by simp
  nonempty := by simp
  inside := by simp
  ordered := .nil
  boundaries := by simp
  gaps := by simp
  lastGap := ⟨skipped, holds, gap⟩
  spelled := by simp

/-- A gap and a token are told together with what follows them. -/
theorem Faithful.cons
    {source : String}
    {offset : Nat}
    {token : Token}
    {rest : List Token}
    {skipped run : List Cluster}
    (later : Faithful source token.span.stop rest)
    (gapHolds : (Span.mk offset token.span.start).Holds source skipped)
    (gap : Gap False skipped)
    (holds : token.span.Holds source run)
    (nonempty : run ≠ [])
    (spells : Spells (rest = [] ∧ token.span.stop = source.utf8ByteSize) token.kind run) :
    Faithful source offset (token :: rest) where
  kinds := List.forall_mem_cons.mpr ⟨spells.kind_ne_endOfInput, later.kinds⟩
  nonempty := List.forall_mem_cons.mpr ⟨holds.start_lt nonempty, later.nonempty⟩
  inside := by
    refine List.forall_mem_cons.mpr ⟨⟨gapHolds.start_le, holds.stop_le⟩, ?_⟩
    intro other present
    obtain ⟨behind, stop_le⟩ := later.inside other present
    exact ⟨gapHolds.start_le.trans (holds.start_le.trans behind), stop_le⟩
  ordered := by
    refine List.pairwise_cons.mpr ⟨?_, later.ordered⟩
    intro other present
    exact (later.inside other present).1
  boundaries := List.forall_mem_cons.mpr ⟨holds.boundaries, later.boundaries⟩
  gaps := by
    intro before other after split
    cases before with
    | nil =>
        obtain ⟨rfl, rfl⟩ := List.cons.inj split
        exact ⟨skipped, gapHolds, gap⟩
    | cons first before =>
        obtain ⟨rfl, splitLater⟩ := List.cons.inj split
        exact later.gaps before other after splitLater
  lastGap := later.lastGap
  spelled := by
    intro before other after split
    cases before with
    | nil =>
        obtain ⟨rfl, rfl⟩ := List.cons.inj split
        exact ⟨run, holds, spells⟩
    | cons first before =>
        obtain ⟨rfl, splitLater⟩ := List.cons.inj split
        exact later.spelled before other after splitLater

/-- Only the end of the input covers nothing. -/
theorem Covers.eq_last
    {offset : Nat}
    {tokens : List Token}
    (covers : Covers offset [] tokens) :
    ∃ position, tokens = [.endOfInput offset position] := by
  generalize isRun : ([] : List Cluster) = run at covers
  cases covers with
  | @last _ skipped position _ =>
      subst isRun
      exact ⟨position, rfl⟩
  | next _ nonempty _ _ =>
      simp at isRun
      exact absurd isRun.2.1 nonempty

/-- Tokens that cover what is left of a source are faithful to it. -/
theorem Covers.faithful
    {source : String}
    {offset : Nat}
    {run : List Cluster}
    {all : List Token}
    (covers : Covers offset run all)
    (before : List Cluster)
    (whole : Text.clusters source.toList = before ++ run)
    (starts : offset = byteSize before) :
    ∃ tokens position, all = tokens ++ [.endOfInput source.utf8ByteSize position] ∧
      Faithful source offset tokens ∧ putTogether source offset tokens = Cluster.join run := by
  induction covers generalizing before with
  | @last offset skipped position gap =>
      subst starts
      have size : byteSize (before ++ skipped) = source.utf8ByteSize := by
        rw [← whole, byteSize_clusters]
      have holds := Span.holds_of_cut source before skipped [] (by rw [whole, List.append_nil])
      rw [size] at holds
      refine ⟨[], position, ?_, faithful_nil holds gap, holds.slice_eq⟩
      rw [← byteSize_append, size]
      rfl
  | @next offset skipped spelling rest kind position tokens gap nonempty spells covers
      inductionHypothesis =>
      subst starts
      have gapHolds := Span.holds_of_cut source before skipped (spelling ++ rest) (by simp [whole])
      have holds := Span.holds_of_cut source (before ++ skipped) spelling rest (by simp [whole])
      obtain ⟨later, last, isAll, faithful, together⟩ :=
        inductionHypothesis (before ++ skipped ++ spelling) (by simp [whole])
          (by rw [byteSize_append, byteSize_append])
      simp only [byteSize_append] at gapHolds holds
      refine ⟨_ :: later, last, by rw [isAll]; rfl,
        faithful.cons gapHolds gap holds nonempty (spells.mono ?_), ?_⟩
      · -- A string that is left open takes all that is left, so no token follows it.
        rintro rfl
        obtain ⟨_, alone⟩ := covers.eq_last
        have none : later = [] := by
          simpa using congrArg List.length (isAll.symm.trans alone)
        refine ⟨none, ?_⟩
        rw [← byteSize_clusters, whole]
        simp [Nat.add_assoc]
      · rw [putTogether, gapHolds.slice_eq, holds.slice_eq, together]
        simp [Cluster.join, String.append_assoc]

/-- A source is told by its tokens, the last of which is the end of the input. -/
theorem tokenize_faithful (source : String) :
    ∃ tokens position,
      tokenize source = tokens ++ [.endOfInput source.utf8ByteSize position] ∧
      Faithful source 0 tokens ∧ putTogether source 0 tokens = source := by
  obtain ⟨all, made, covers⟩ := tokensFrom_covers (.ofText source) #[]
  obtain ⟨tokens, position, isAll, faithful, together⟩ := covers.faithful [] rfl rfl
  refine ⟨tokens, position, by simp [tokenize, made, isAll], faithful, together.trans ?_⟩
  show String.ofList (Text.clusters source.toList).flatten = source
  rw [Text.flatten_clusters, String.ofList_toList]

end Scan
end Pictogram
