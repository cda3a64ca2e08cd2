import Pictogram.Text.Cluster
import Mathlib.Data.List.Infix

/-!
# Clusters of parts of a text

Where a cluster ends is decided by its own characters and the one behind it.  So the
clusters of a text can be read off one at a time, a run of them is cut into the same
clusters when it stands alone, and nothing joins across a line feed.
-/

namespace Pictogram
namespace Text

/-- The characters that join an open cluster, and those behind them. -/
def extent (trail : Trail) : List Char → List Char × List Char
  | [] => ([], [])
  | c :: rest =>
    if trail.joins c then
      (c :: (extent (trail.push c) rest).1, (extent (trail.push c) rest).2)
    else ([], c :: rest)

/-- Where an open cluster ends does not change if less is behind it. -/
theorem extent_of_prefix
    (trail : Trail)
    (rest : List Char)
    {less : List Char}
    (isPrefix : less <+: (extent trail rest).2) :
    extent trail ((extent trail rest).1 ++ less) = ((extent trail rest).1, less) := by
  induction rest generalizing trail with
  | nil =>
      obtain rfl := List.prefix_nil.mp isPrefix
      rfl
  | cons c rest inductionHypothesis =>
      by_cases joins : trail.joins c
      · simp only [extent, joins, if_true] at isPrefix ⊢
        simp [extent, joins, inductionHypothesis _ isPrefix]
      · simp only [extent, joins] at isPrefix ⊢
        cases less with
        | nil => rfl
        | cons first more =>
            obtain ⟨rfl, -⟩ := List.cons_prefix_cons.mp isPrefix
            simp [extent, joins]

/-- The clusters found so far do not matter for those that are found later. -/
theorem segment_eq_append
    (done : List Cluster)
    (current : List Char)
    (trail : Trail)
    (rest : List Char) :
    segment done current trail rest = done.reverse ++ segment [] current trail rest := by
  induction rest generalizing done current trail with
  | nil => simp [segment]
  | cons c rest inductionHypothesis =>
      simp only [segment]
      split
      · exact inductionHypothesis done _ _
      · rw [inductionHypothesis (current.reverse :: done), inductionHypothesis [current.reverse]]
        simp

/-- Segmenting takes what joins the open cluster, and begins anew behind it. -/
theorem segment_eq_extent (current : List Char) (trail : Trail) (rest : List Char) :
    segment [] current trail rest =
      (current.reverse ++ (extent trail rest).1) :: clusters (extent trail rest).2 := by
  induction rest generalizing current trail with
  | nil => simp [segment, extent]
  | cons c rest inductionHypothesis =>
      by_cases joins : trail.joins c
      · simp [segment, extent, joins, inductionHypothesis]
      · simp [segment, extent, joins, clusters, segment_eq_append [current.reverse]]

/-- The first cluster of a text, and the clusters of what is behind it. -/
theorem clusters_cons (c : Char) (rest : List Char) :
    clusters (c :: rest) =
      (c :: (extent (.start c) rest).1) :: clusters (extent (.start c) rest).2 :=
  segment_eq_extent [c] (.start c) rest

/-! ## Runs of clusters -/

/-- The clusters at the end of a text are those of their own characters. -/
theorem clusters_flatten_of_suffix
    {text : List Char}
    {before after : List Cluster}
    (cut : clusters text = before ++ after) :
    clusters after.flatten = after := by
  induction before generalizing text with
  | nil =>
      obtain rfl : clusters text = after := cut
      rw [flatten_clusters]
  | cons first before inductionHypothesis =>
      cases text with
      | nil => simp at cut
      | cons c rest =>
          rw [clusters_cons] at cut
          exact inductionHypothesis (List.cons.inj cut).2

/-- The clusters at the beginning of a text are those of their own characters. -/
theorem clusters_flatten_of_prefix
    {text : List Char}
    {before after : List Cluster}
    (cut : clusters text = before ++ after) :
    clusters before.flatten = before := by
  induction before generalizing text with
  | nil => rfl
  | cons first before inductionHypothesis =>
      cases text with
      | nil => simp at cut
      | cons c rest =>
          rw [clusters_cons] at cut
          obtain ⟨rfl, cutBehind⟩ := List.cons.inj cut
          have isPrefix : before.flatten <+: (extent (.start c) rest).2 := by
            rw [← flatten_clusters (extent (.start c) rest).2, cutBehind]
            exact ⟨after.flatten, List.flatten_append.symm⟩
          rw [List.flatten_cons, List.cons_append, clusters_cons,
            extent_of_prefix _ _ isPrefix, inductionHypothesis cutBehind]

/-- A run of clusters is cut into the same clusters when it stands alone. -/
theorem clusters_flatten_of_cut
    {text : List Char}
    {before run after : List Cluster}
    (cut : clusters text = before ++ run ++ after) :
    clusters run.flatten = run := by
  have front : clusters (before ++ run).flatten = before ++ run := clusters_flatten_of_prefix cut
  exact clusters_flatten_of_suffix front

/-! ## Line feeds -/

/-- Only the carriage return is classed as one. -/
theorem BreakClass.eq_of_ofChar_carriageReturn
    {c : Char}
    (isReturn : BreakClass.ofChar c = .carriageReturn) :
    c = '\r' := by
  have choice {p : Prop} [Decidable p] {first second : BreakClass}
      (firstNot : first ≠ .carriageReturn) (secondNot : second ≠ .carriageReturn) :
      (if p then first else second) ≠ .carriageReturn := by
    split <;> assumption
  by_contra different
  have notReturn : c.toNat ≠ 0xD := fun same => different (Char.toNat_inj.mp same)
  refine absurd isReturn ?_
  unfold BreakClass.ofChar BreakClass.ofSyllable
  rw [if_neg notReturn]
  -- Every other class that can be chosen is another one.
  repeat' apply choice
  all_goals nofun

/-- A line feed joins a carriage return and nothing else. -/
theorem Trail.joins_lineFeed (trail : Trail) :
    trail.joins '\n' = decide (trail.last = .carriageReturn) := by
  have isFeed : BreakClass.ofChar '\n' = .lineFeed := rfl
  by_cases last : trail.last = .carriageReturn <;>
    simp [Trail.joins, isFeed, last, BreakClass.isolated]

/-- A carriage return joins nothing. -/
theorem Trail.not_joins_carriageReturn
    (trail : Trail)
    {c : Char}
    (isReturn : BreakClass.ofChar c = .carriageReturn) :
    trail.joins c = false := by
  simp [Trail.joins, isReturn, BreakClass.isolated]

/-- Nothing joins a line feed. -/
theorem Trail.not_joins_of_lineFeed
    {trail : Trail}
    (isFeed : trail.last = .lineFeed)
    (c : Char) :
    trail.joins c = false := by
  simp [Trail.joins, isFeed, BreakClass.isolated]

theorem segment_of_lineFeed
    {trail : Trail}
    (isFeed : trail.last = .lineFeed)
    (current rest : List Char) :
    segment [] current trail rest = current.reverse :: clusters rest := by
  cases rest with
  | nil => rfl
  | cons c rest =>
      simp [segment, Trail.not_joins_of_lineFeed isFeed, clusters,
        segment_eq_append [current.reverse]]

theorem extent_of_lineFeed
    {trail : Trail}
    (isFeed : trail.last = .lineFeed)
    (rest : List Char) :
    (extent trail rest).1 = [] := by
  cases rest with
  | nil => rfl
  | cons c rest => simp [extent, Trail.not_joins_of_lineFeed isFeed]

/-- A line feed ends the characters that join an open cluster. -/
theorem extent_eq_concat_lineFeed
    {trail : Trail}
    {rest : List Char}
    (joined : '\n' ∈ (extent trail rest).1) :
    ∃ before, (extent trail rest).1 = before ++ ['\n'] ∧ '\n' ∉ before := by
  induction rest generalizing trail with
  | nil => cases joined
  | cons c rest inductionHypothesis =>
      by_cases joins : trail.joins c
      · simp only [extent, joins, if_true] at joined ⊢
        by_cases isFeed : c = '\n'
        · subst isFeed
          have pushed : (trail.push '\n').last = .lineFeed := rfl
          exact ⟨[], by rw [extent_of_lineFeed pushed, List.nil_append], List.not_mem_nil⟩
        · have later := (List.mem_cons.mp joined).resolve_left (Ne.symm isFeed)
          obtain ⟨before, whole, none⟩ := inductionHypothesis later
          exact ⟨c :: before, by rw [whole, List.cons_append], by simp [none, Ne.symm isFeed]⟩
      · simp [extent, joins] at joined

/-- A line feed ends its cluster. -/
theorem eq_concat_lineFeed_of_mem_clusters
    {text : List Char}
    {cluster : Cluster}
    (present : cluster ∈ clusters text)
    (newline : '\n' ∈ cluster) :
    ∃ before, cluster = before ++ ['\n'] ∧ '\n' ∉ before := by
  obtain ⟨before, after, cut⟩ := List.append_of_mem present
  have around : clusters text = before ++ [cluster] ++ after := by simp [cut]
  have alone : clusters cluster = [cluster] := by simpa using clusters_flatten_of_cut around
  cases cluster with
  | nil => cases newline
  | cons c rest =>
      rw [clusters_cons] at alone
      have joined : (extent (.start c) rest).1 = rest := (List.cons.inj (List.cons.inj alone).1).2
      by_cases isFeed : c = '\n'
      · subst isFeed
        rw [extent_of_lineFeed rfl] at joined
        exact ⟨[], by rw [← joined, List.nil_append], List.not_mem_nil⟩
      · have later := (List.mem_cons.mp newline).resolve_left (Ne.symm isFeed)
        obtain ⟨before, whole, none⟩ := extent_eq_concat_lineFeed (joined.symm ▸ later)
        exact ⟨c :: before, by rw [← joined, whole, List.cons_append],
          by simp [none, Ne.symm isFeed]⟩

/-- What is behind a line feed is cut into clusters on its own. -/
theorem segment_append_lineFeed
    (current : List Char)
    (trail : Trail)
    (rest more : List Char) :
    segment [] current trail (rest ++ '\n' :: more) =
      segment [] current trail (rest ++ ['\n']) ++ clusters more := by
  induction rest generalizing current trail with
  | nil =>
      have pushed : (trail.push '\n').last = .lineFeed := rfl
      have begun : (Trail.start '\n').last = .lineFeed := rfl
      simp only [List.nil_append, segment]
      split
      · simp [segment_of_lineFeed pushed]
      · simp [segment_eq_append [current.reverse], segment_of_lineFeed begun]
  | cons c rest inductionHypothesis =>
      simp only [List.cons_append, segment]
      split
      · exact inductionHypothesis _ _
      · rw [segment_eq_append, inductionHypothesis, segment_eq_append [current.reverse],
          List.append_assoc]

/-- Behind a line feed the clusters begin anew. -/
theorem clusters_append_lineFeed (text more : List Char) :
    clusters (text ++ '\n' :: more) = clusters (text ++ ['\n']) ++ clusters more := by
  cases text with
  | nil => exact segment_of_lineFeed rfl ['\n'] more
  | cons c rest => exact segment_append_lineFeed [c] (.start c) rest more

/-- How a text ends without and with a line feed behind it: the line feed is a cluster of its
own, or it joins a carriage return. -/
inductive LineEnd : List Cluster → Cluster → Prop
  | feed : LineEnd [] ['\n']
  | afterReturn : LineEnd [['\r']] ['\r', '\n']

theorem segment_concat_lineFeed
    (current : List Char)
    (trail : Trail)
    (rest : List Char)
    (alone : trail.last = .carriageReturn → current = ['\r']) :
    ∃ run tail newline, LineEnd tail newline ∧ segment [] current trail rest = run ++ tail ∧
      segment [] current trail (rest ++ ['\n']) = run ++ [newline] := by
  induction rest generalizing current trail with
  | nil =>
      simp only [List.nil_append, segment, trail.joins_lineFeed, decide_eq_true_eq]
      split
      · rename_i isReturn
        obtain rfl := alone isReturn
        exact ⟨[], _, _, .afterReturn, rfl, rfl⟩
      · exact ⟨[current.reverse], _, _, .feed, by simp, by simp⟩
  | cons c rest inductionHypothesis =>
      simp only [List.cons_append, segment]
      split
      · rename_i joins
        refine inductionHypothesis _ _ fun isReturn => ?_
        rw [trail.not_joins_carriageReturn isReturn] at joins
        cases joins
      · obtain ⟨run, tail, newline, lineEnd, without, within⟩ :=
          inductionHypothesis [c] (.start c) fun isReturn => by
            rw [BreakClass.eq_of_ofChar_carriageReturn isReturn]
        refine ⟨current.reverse :: run, tail, newline, lineEnd, ?_, ?_⟩
        · rw [segment_eq_append, without]
          rfl
        · rw [segment_eq_append, within]
          rfl

/-- A line feed at the end of a text changes at most the last cluster before it. -/
theorem clusters_concat_lineFeed (text : List Char) :
    ∃ run tail newline, LineEnd tail newline ∧ clusters text = run ++ tail ∧
      clusters (text ++ ['\n']) = run ++ [newline] := by
  cases text with
  | nil => exact ⟨[], [], _, .feed, rfl, rfl⟩
  | cons c rest =>
      refine segment_concat_lineFeed [c] (.start c) rest fun isReturn => ?_
      rw [BreakClass.eq_of_ofChar_carriageReturn isReturn]

end Text
end Pictogram
