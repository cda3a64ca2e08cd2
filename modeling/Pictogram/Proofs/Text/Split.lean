import Pictogram.Text.Split

/-!
# Pieces of a text and the whole

To cut a text at a separator and to put pieces together with one undo each other, as long
as the separator is in no piece.
-/

namespace Pictogram
namespace Text

theorem split_eq_splitOn (separator : Char) (text : List Char) :
    split separator text = text.splitOn separator := by
  induction text with
  | nil => rfl
  | cons character rest inductionHypothesis =>
      obtain ⟨piece, pieces, cut⟩ :=
        List.exists_cons_of_ne_nil (List.splitOn_ne_nil separator rest)
      rw [split_cons, inductionHypothesis, List.splitOn_cons_eq_if_modifyHead, cut]
      by_cases same : character = separator <;> simp [splitStep, same]

theorem join_eq_intercalate (separator : Char) (pieces : List (List Char)) :
    join separator pieces = [separator].intercalate pieces := by
  fun_induction join separator pieces with
  | case1 => rfl
  | case2 piece => rw [List.intercalate_singleton]
  | case3 piece next rest inductionHypothesis =>
      rw [inductionHypothesis, List.intercalate_cons_cons, List.append_assoc]
      rfl

/-- The pieces of a text, joined, are the text. -/
theorem join_split (separator : Char) (text : List Char) :
    join separator (split separator text) = text := by
  rw [join_eq_intercalate, split_eq_splitOn, List.intercalate_splitOn]

/-- Joined pieces are found again, if none holds the separator. -/
theorem split_join
    {separator : Char}
    {pieces : List (List Char)}
    (free : ∀ piece ∈ pieces, separator ∉ piece)
    (nonempty : pieces ≠ []) :
    split separator (join separator pieces) = pieces := by
  rw [join_eq_intercalate, split_eq_splitOn, List.splitOn_intercalate separator free nonempty]

/-- A text is split at a separator into the pieces before it and those behind. -/
theorem split_append (separator : Char) (first second : List Char) :
    split separator (first ++ separator :: second) =
      split separator first ++ split separator second := by
  simp only [split_eq_splitOn, List.splitOn_append_cons_self]

/-- A text without the separator is one piece. -/
theorem split_of_free
    {separator : Char}
    {text : List Char}
    (free : separator ∉ text) :
    split separator text = [text] := by
  rw [split_eq_splitOn, List.splitOn_eq_singleton free]

/-- No piece has the separator in it. -/
theorem not_mem_of_mem_split
    {separator : Char}
    {text piece : List Char}
    (cut : piece ∈ split separator text) :
    separator ∉ piece := by
  induction text generalizing piece with
  | nil =>
      obtain rfl : piece = [] := by simpa using cut
      exact List.not_mem_nil
  | cons character rest inductionHypothesis =>
      simp only [split_cons, splitStep] at cut
      split at cut
      · rcases List.mem_cons.mp cut with rfl | later
        · exact List.not_mem_nil
        · exact inductionHypothesis later
      · rename_i different
        split at cut
        · rename_i none
          exact absurd none (split_ne_nil separator rest)
        · rename_i first others isSplit
          rcases List.mem_cons.mp cut with rfl | later
          · have free := inductionHypothesis (isSplit ▸ List.mem_cons_self)
            simp [Ne.symm different, free]
          · exact inductionHypothesis (isSplit ▸ List.mem_cons_of_mem _ later)

/-- One more piece behind others. -/
theorem join_concat
    {pieces : List (List Char)}
    (nonempty : pieces ≠ [])
    (separator : Char)
    (last : List Char) :
    join separator (pieces ++ [last]) = join separator pieces ++ separator :: last := by
  fun_induction join separator pieces with
  | case1 => exact absurd rfl nonempty
  | case2 piece => rfl
  | case3 piece next rest inductionHypothesis =>
      simp only [List.cons_append, join]
      rw [← List.cons_append, inductionHypothesis (List.cons_ne_nil next rest)]
      simp

/-- What stands behind the last piece stands behind the whole. -/
theorem join_concat_append
    (separator : Char)
    (pieces : List (List Char))
    (last more : List Char) :
    join separator (pieces ++ [last ++ more]) = join separator (pieces ++ [last]) ++ more := by
  by_cases nonempty : pieces = []
  · subst nonempty
    rfl
  · simp [join_concat nonempty]

end Text
end Pictogram
