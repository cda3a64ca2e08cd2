import Pictogram.Proofs.Parse.Language

/-!
# The earliest error

A parse that fails does so at the first token that no program can have where it stands.  The
tokens before that token begin a program.
-/

namespace Pictogram
namespace Parse

open Grammar (Endless Spells endless_append)

/-- Some program begins with the tokens. -/
def Viable (tokens : List Token) : Prop :=
  ∃ more program, parseTokens (tokens ++ more) = .ok program

/-- Tokens without an end of the input are all before it. -/
theorem beforeEnd_eq_self {tokens : List Token} (endless : Endless tokens) :
    beforeEnd tokens = tokens := by
  have same := beforeEnd_append endless (rfl : (current []).kind = .endOfInput)
  rwa [List.append_nil] at same

/-- Tokens that a program of the grammar begins with are viable. -/
theorem viable_of_spells
    {tokens more : List Token}
    {found : Program}
    (spells : Spells (tokens ++ more) (.statements found)) :
    Viable tokens := by
  refine ⟨more, found, parseTokens_complete ?_⟩
  rwa [beforeEnd_eq_self spells.endless]

/-- A list that a parse has failed on is not empty, so an end has been put behind it. -/
theorem closed_of_fails
    {tokens : List Token}
    {failure : Failure}
    (failed : program #[] (closed tokens) = .error failure) :
    ∃ ending : Token, ending.kind = .endOfInput ∧ closed tokens = tokens ++ [ending] := by
  unfold closed at failed ⊢
  cases isLast : tokens.getLast? with
  | none =>
      rw [isLast, program_end rfl] at failed
      cases failed
  | some last => exact ⟨_, rfl, rfl⟩

/-- Tokens behind which the parser has failed at a token cannot be followed by that token. -/
theorem not_viable_of_fails
    {used : List Token}
    {token : Token}
    {error : Error}
    (fails : ∀ others, current others = token →
      program #[] (used ++ others) = .error ⟨error, others⟩) :
    ¬Viable (used ++ [token]) := by
  rintro ⟨others, found, parsed⟩
  rw [List.append_assoc, List.singleton_append] at parsed
  obtain ⟨more, isClosed⟩ := closed_append used token others
  unfold parseTokens at parsed
  rw [isClosed, fails (token :: more) rfl] at parsed
  cases parsed

/-- Tokens that are a program can be followed by an end of the input. -/
theorem viable_end
    {tokens : List Token}
    {ending : Token}
    {found : Program}
    (endless : Endless tokens)
    (isEnd : ending.kind = .endOfInput)
    (parsed : parseTokens tokens = .ok found) :
    Viable (tokens ++ [ending]) := by
  have spells := parseTokens_sound parsed
  rw [beforeEnd_eq_self endless] at spells
  have isNext : (current [ending]).kind = .endOfInput := isEnd
  refine ⟨[], found, parseTokens_complete ?_⟩
  rwa [List.append_nil, beforeEnd_append endless isNext]

/-- A parse fails at the earliest possible token.  The error has the position of the token that
the parser stands at.  Some program begins with the tokens before, but none does so with that
token behind them, where the end of the input stands for the end of the tokens too. -/
theorem parseTokens_fails_earliest
    {tokens : List Token}
    {error : Error}
    (failed : parseTokens tokens = .error error) :
    ∃ consumed offending rest,
      closed tokens = consumed ++ offending :: rest ∧
      program #[] (closed tokens) = .error ⟨error, offending :: rest⟩ ∧
      error.position = offending.position ∧
      Viable consumed ∧
      ¬Viable (consumed ++ [offending]) ∧
      (offending.kind = .endOfInput → ∀ found, parseTokens consumed ≠ .ok found) := by
  unfold parseTokens at failed
  split at failed
  · cases failed
  · next failure read =>
      obtain rfl : failure.error = error := Except.error.inj failed
      obtain ⟨ending, isEnd, isClosed⟩ := closed_of_fails read
      rw [isClosed] at read ⊢
      cases program_follows #[] (tokens ++ [ending]) with
      | takes used rest split _ again => cases read.symm.trans (split ▸ again rest rfl)
      | fails used rest more split begun isHere again =>
          cases read.symm.trans (split ▸ again rest rfl)
          obtain ⟨found, -, spells⟩ := begun
          have endless : Endless used := (endless_append.mp spells.endless).1
          -- No end has been taken, so there is a token left to fail at.
          obtain ⟨inner, -, isRest⟩ := endless.split isEnd split
          cases rest with
          | nil => cases inner <;> cases isRest
          | cons offending rest =>
              have notViable : ¬Viable (used ++ [offending]) := not_viable_of_fails again
              refine ⟨used, offending, rest, split, read, isHere, viable_of_spells spells,
                notViable, fun isEnd found parsed => ?_⟩
              exact notViable (viable_end endless isEnd parsed)

/-- Tokens of a loop whose body prints a sum without its second operand. -/
def brokenLoop : List Token :=
  [placed .whileWord 1, placed (.identifier "x") 2, placed .blockOpen 3, placed .printWord 4,
    placed (.identifier "x") 5, placed .plus 6, placed .star 7, placed .stop 8,
    placed .blockClose 9]

theorem parseTokens_fails_earliest_brokenLoop :
    parseTokens brokenLoop = .error ⟨⟨1, 7⟩, .printStatement, .missingValue .star⟩ ∧
    Viable (brokenLoop.take 6) ∧ ¬Viable (brokenLoop.take 6 ++ [placed .star 7]) := by
  have failed : parseTokens brokenLoop =
      .error ⟨⟨1, 7⟩, .printStatement, .missingValue .star⟩ := by cbv
  have stands : program #[] (closed brokenLoop) =
      .error ⟨⟨⟨1, 7⟩, .printStatement, .missingValue .star⟩, (closed brokenLoop).drop 6⟩ := by cbv
  obtain ⟨consumed, offending, rest, split, isThere, -, viable, notViable, -⟩ :=
    parseTokens_fails_earliest failed
  have here : (closed brokenLoop).drop 6 = offending :: rest :=
    congrArg Failure.tokens (Except.error.inj (stands.symm.trans isThere))
  obtain rfl : placed .star 7 = offending := (List.cons.inj here).1
  rw [← here] at split
  obtain rfl : brokenLoop.take 6 = consumed :=
    List.append_cancel_right ((List.take_append_drop 6 (closed brokenLoop)).trans split)
  exact ⟨failed, viable, notViable⟩

end Parse
end Pictogram
