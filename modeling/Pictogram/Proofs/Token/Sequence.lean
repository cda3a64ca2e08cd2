import Pictogram.Token.Scan

/-!
# The tokens from a cursor on

The scanner reads one token after another up to the end of the input.  What the tokens of a
source are can be told from single steps: each of them is the next token where its predecessor
has left off.
-/

namespace Pictogram
namespace Scan

/-- The tokens from a cursor on. -/
def tokens (cursor : Cursor) : List Token := (tokensFrom cursor #[]).toList

theorem tokensFrom_append (cursor : Cursor) (earlier done : Array Token) :
    tokensFrom cursor (earlier ++ done) = earlier ++ tokensFrom cursor done := by
  induction cursor, done using tokensFrom.induct with
  | case1 cursor done found more inductionHypothesis =>
      rw [tokensFrom.eq_def cursor, tokensFrom.eq_def cursor, if_pos more, if_pos more,
        ← inductionHypothesis]
      simp [found]
  | case2 cursor done found isEnd =>
      rw [tokensFrom, if_neg isEnd, tokensFrom, if_neg isEnd]
      simp

/-- A token that is not the end of the input is followed by those from the next cursor on. -/
theorem tokens_of_more
    {cursor : Cursor}
    (more : cursor.next.1.kind ≠ .endOfInput) :
    tokens cursor = cursor.next.1 :: tokens cursor.next.2 := by
  have split := tokensFrom_append cursor.next.2 #[cursor.next.1] #[]
  rw [Array.append_empty] at split
  rw [tokens, tokensFrom, if_pos more]
  simp [split, tokens]

/-- The end of the input is the last token. -/
theorem tokens_of_end
    {cursor : Cursor}
    (isEnd : cursor.next.1.kind = .endOfInput) :
    tokens cursor = [cursor.next.1] := by
  rw [tokens, tokensFrom, if_neg (Decidable.not_not.mpr isEnd)]
  rfl

theorem tokens_ne_nil (cursor : Cursor) : tokens cursor ≠ [] := by
  by_cases isEnd : cursor.next.1.kind = .endOfInput
  · simp [tokens_of_end isEnd]
  · simp [tokens_of_more isEnd]

/-- Only the next token, and what is behind it, matters. -/
theorem tokens_congr {first second : Cursor} (same : first.next = second.next) :
    tokens first = tokens second := by
  by_cases isEnd : first.next.1.kind = .endOfInput
  · have secondEnd : second.next.1.kind = .endOfInput := same ▸ isEnd
    rw [tokens_of_end isEnd, tokens_of_end secondEnd, same]
  · have secondMore : second.next.1.kind ≠ .endOfInput := same ▸ isEnd
    rw [tokens_of_more isEnd, tokens_of_more secondMore, same]

/-- The tokens are read in turn from the cursor on, and only the last is the end of the input. -/
def Cursor.Yields : Cursor → List Token → Prop
  | _, [] => False
  | cursor, [token] => cursor.next.1 = token ∧ token.kind = .endOfInput
  | cursor, token :: rest =>
    cursor.next.1 = token ∧ token.kind ≠ .endOfInput ∧ cursor.next.2.Yields rest

instance Cursor.decidableYields :
    (cursor : Cursor) → (tokens : List Token) → Decidable (cursor.Yields tokens)
  | _, [] => inferInstanceAs (Decidable False)
  | cursor, [token] =>
    inferInstanceAs (Decidable (cursor.next.1 = token ∧ token.kind = .endOfInput))
  | cursor, token :: second :: rest =>
    have := decidableYields cursor.next.2 (second :: rest)
    inferInstanceAs (Decidable (cursor.next.1 = token ∧ token.kind ≠ .endOfInput ∧
      cursor.next.2.Yields (second :: rest)))

/-- Tokens that are read in turn are all the tokens. -/
theorem Cursor.Yields.tokens_eq
    {cursor : Cursor}
    {found : List Token}
    (yields : cursor.Yields found) :
    tokens cursor = found := by
  induction found generalizing cursor with
  | nil => cases yields
  | cons token rest inductionHypothesis =>
      cases rest with
      | nil =>
          obtain ⟨isNext, isEnd⟩ := yields
          rw [tokens_of_end (isNext ▸ isEnd), isNext]
      | cons second others =>
          obtain ⟨isNext, isMore, goesOn⟩ := yields
          rw [tokens_of_more (isNext ▸ isMore), isNext, inductionHypothesis goesOn]

/-- The tokens of a source are those that are read in turn from its beginning on. -/
theorem tokenize_of_yields
    {source : String}
    {found : List Token}
    (yields : (Cursor.ofText source).Yields found) :
    tokenize source = found :=
  yields.tokens_eq

end Scan
end Pictogram
