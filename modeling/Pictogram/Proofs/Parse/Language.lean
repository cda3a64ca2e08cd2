import Pictogram.Proofs.Parse.Follow.Statement

/-!
# The language of the parser

The parser accepts the programs of the grammar, and no other token lists.  What it gives
is the tree of the program.
-/

namespace Pictogram

open Grammar (Derives Phrase Spells)

namespace Parse

open Grammar (Endless endless_append)

/-- The tokens before the first end of the input, all of them if there is none. -/
def beforeEnd (tokens : List Token) : List Token :=
  tokens.takeWhile fun token => token.kind ≠ .endOfInput

theorem endless_beforeEnd (tokens : List Token) : Endless (beforeEnd tokens) := by
  intro token present
  simpa using List.all_eq_true.mp List.all_takeWhile token present

/-- The tokens before the end are those in front of the first one. -/
theorem beforeEnd_append
    {tokens rest : List Token}
    (endless : Endless tokens)
    (isEnd : (current rest).kind = .endOfInput) :
    beforeEnd (tokens ++ rest) = tokens := by
  have none : rest.takeWhile (fun token => decide (token.kind ≠ .endOfInput)) = [] := by
    cases rest with
    | nil => rfl
    | cons token more =>
        have isKind : token.kind = .endOfInput := isEnd
        simp [isKind]
  unfold beforeEnd
  rw [List.takeWhile_append_of_pos (by simpa [Endless] using endless), none, List.append_nil]

/-- Behind the tokens before the end is an end, or nothing. -/
theorem split_beforeEnd (tokens : List Token) :
    ∃ behind, tokens = beforeEnd tokens ++ behind ∧ (current behind).kind = .endOfInput := by
  induction tokens with
  | nil => exact ⟨[], rfl, rfl⟩
  | cons token rest inductionHypothesis =>
      by_cases isEnd : token.kind = .endOfInput
      · exact ⟨token :: rest, by simp [beforeEnd, isEnd], isEnd⟩
      · obtain ⟨behind, split, behindEnd⟩ := inductionHypothesis
        refine ⟨behind, ?_, behindEnd⟩
        have kept : beforeEnd (token :: rest) = token :: beforeEnd rest := by
          simp [beforeEnd, isEnd]
        rw [kept, List.cons_append, ← split]

/-- What is parsed are the tokens before the first end of the input, followed by one. -/
theorem closed_eq (tokens : List Token) :
    ∃ rest, closed tokens = beforeEnd tokens ++ rest ∧ (current rest).kind = .endOfInput := by
  cases last : tokens.getLast? with
  | none =>
      obtain rfl := List.getLast?_eq_none_iff.mp last
      exact ⟨[], rfl, rfl⟩
  | some token =>
      obtain ⟨behind, split, isEnd⟩ := split_beforeEnd tokens
      refine ⟨behind ++ [.endOfInput token.span.stop token.position], ?_, ?_⟩
      · rw [closed, last]
        exact (congrArg (· ++ _) split).trans (List.append_assoc ..)
      · cases behind with
        | nil => rfl
        | cons => exact isEnd

/-- Closing a list of tokens changes only what comes behind a token that is in it. -/
theorem closed_append (before : List Token) (token : Token) (after : List Token) :
    ∃ more, closed (before ++ token :: after) = before ++ token :: more := by
  unfold closed
  cases isLast : (before ++ token :: after).getLast? with
  | none => simp at isLast
  | some last => exact ⟨after ++ [.endOfInput last.span.stop last.position], by simp⟩

/-- A program that is read leaves the end of the input. -/
theorem program_rest
    {done : Array Statement}
    {tokens rest : List Token}
    {found : Program}
    (read : program done tokens = .ok (found, rest)) :
    (current rest).kind = .endOfInput := by
  by_cases isEnd : (current tokens).kind = .endOfInput
  · rw [program_end isEnd] at read
    cases read
    exact isEnd
  · rw [program, if_neg isEnd] at read
    cases nextRead : statement tokens with
    | error failure =>
        rw [nextRead] at read
        cases read
    | ok next =>
        rw [nextRead] at read
        exact program_rest read
termination_by tokens.length
decreasing_by exact next.shorter

/-- The statements of a program are read up to an end of the input. -/
theorem program_sound
    {done : Array Statement}
    {tokens rest : List Token}
    {found : Program}
    (read : program done tokens = .ok (found, rest)) :
    ∃ used more, tokens = used ++ rest ∧ (current rest).kind = .endOfInput ∧
      found = done.toList ++ more ∧ Spells used (.statements more) := by
  cases program_follows done tokens with
  | takes used behind split taken again =>
      cases read.symm.trans (split ▸ again behind rfl)
      obtain ⟨more, foundIs, spells⟩ := taken
      exact ⟨used, more, split, program_rest read, foundIs, spells⟩
  | fails used behind _ split _ _ again => cases read.symm.trans (split ▸ again behind rfl)

/-- What is parsed is a program of the grammar. -/
theorem parseTokens_sound
    {tokens : List Token}
    {found : Program}
    (parsed : parseTokens tokens = .ok found) :
    Spells (beforeEnd tokens) (.statements found) := by
  unfold parseTokens at parsed
  split at parsed
  · next behind read =>
      cases parsed
      obtain ⟨used, more, split, isEnd, foundIs, spells⟩ := program_sound read
      obtain ⟨rest, isClosed, restEnd⟩ := closed_eq tokens
      have same : beforeEnd tokens = used := calc
        beforeEnd tokens = beforeEnd (closed tokens) := by
          rw [isClosed, beforeEnd_append (endless_beforeEnd tokens) restEnd]
        _ = used := by rw [split, beforeEnd_append spells.endless isEnd]
      rw [same, foundIs]
      exact spells
  · cases parsed

/-- Every program of the grammar is parsed. -/
theorem parseTokens_complete
    {tokens : List Token}
    {found : Program}
    (spells : Spells (beforeEnd tokens) (.statements found)) :
    parseTokens tokens = .ok found := by
  obtain ⟨rest, isClosed, isEnd⟩ := closed_eq tokens
  have read : program #[] (closed tokens) = .ok (found, rest) := by
    rw [isClosed]
    exact program_complete spells isEnd
  unfold parseTokens
  rw [read]

/-- Tokens behind an end of the input make no difference. -/
theorem parseTokens_eq_of_end
    (before : List Token)
    {ending : Token}
    (isEnd : ending.kind = .endOfInput)
    (after others : List Token) :
    parseTokens (before ++ ending :: after) = parseTokens (before ++ ending :: others) := by
  obtain ⟨more, isClosed⟩ := closed_append before ending after
  obtain ⟨more', isClosed'⟩ := closed_append before ending others
  have same (inner : List Token) :
      current (inner ++ ending :: more') = current (inner ++ ending :: more) := by
    apply current_append
    rfl
  unfold parseTokens
  rw [isClosed, isClosed']
  cases program_follows #[] (before ++ ending :: more) with
  | takes used rest split taken again =>
      obtain ⟨_, -, spells⟩ := taken
      obtain ⟨inner, rfl, rfl⟩ := spells.endless.split isEnd split
      rw [List.append_assoc, List.append_assoc, again _ rfl, again _ (same inner)]
  | fails used rest _ split begun _ again =>
      obtain ⟨_, -, spells⟩ := begun
      obtain ⟨inner, rfl, rfl⟩ := (endless_append.mp spells.endless).1.split isEnd split
      rw [List.append_assoc, List.append_assoc, again _ rfl, again _ (same inner)]

/-- The parser accepts exactly the token lists that are programs up to the first end of the
input, and gives the tree of the program, of which there is only one.  What comes behind an
end of the input makes no difference, whether the program is accepted or not. -/
theorem parseTokens_eq_ok_iff (tokens : List Token) :
    (∀ program, parseTokens tokens = .ok program ↔
      Spells (beforeEnd tokens) (.statements program)) ∧
    (∀ program other, Spells (beforeEnd tokens) (.statements program) →
      Spells (beforeEnd tokens) (.statements other) → program = other) ∧
    ∀ before ending after others, tokens = before ++ ending :: after →
      ending.kind = .endOfInput → parseTokens (before ++ ending :: others) = parseTokens tokens := by
  have accepts : ∀ program, parseTokens tokens = .ok program ↔
      Spells (beforeEnd tokens) (.statements program) :=
    fun program => ⟨parseTokens_sound, parseTokens_complete⟩
  refine ⟨accepts, ?_, ?_⟩
  · intro program other spells otherSpells
    have same := ((accepts program).mpr spells).symm.trans ((accepts other).mpr otherSpells)
    exact Except.ok.inj same
  · rintro before ending after others rfl isEnd
    exact parseTokens_eq_of_end before isEnd others after

/-- A token on the first line. -/
def placed (kind : Token.Kind) (column : Nat) : Token :=
  ⟨kind, ⟨column, column + 1⟩, ⟨1, column⟩⟩

/-- A number on the first line. -/
def placedNumber (text : String) (column : Nat) : Expression :=
  .literal (.number (numberValue text)) ⟨1, column⟩

/-- Tokens that print the sum of a number and a product. -/
def sumTokens : List Token :=
  [placed .printWord 1, placed (.number "1") 2, placed .plus 3, placed (.number "2") 4,
    placed .star 5, placed (.number "3") 6, placed .stop 7]

theorem parseTokens_sumTokens :
    parseTokens (sumTokens ++ [placed .endOfInput 8, placed .blockClose 9]) =
      .ok [.print (.binary .add (placedNumber "1" 2)
        (.binary .multiply (placedNumber "2" 4) (placedNumber "3" 6) ⟨1, 5⟩) ⟨1, 3⟩) ⟨1, 1⟩] ∧
    parseTokens (sumTokens ++ placed .endOfInput 8 :: sumTokens) =
      parseTokens (sumTokens ++ [placed .endOfInput 8, placed .blockClose 9]) := by
  obtain ⟨accepts, -, ending⟩ :=
    parseTokens_eq_ok_iff (sumTokens ++ [placed .endOfInput 8, placed .blockClose 9])
  refine ⟨(accepts _).mpr ?_, ending sumTokens (placed .endOfInput 8) _ _ rfl rfl⟩
  have number (text : String) (column : Nat) :
      Derives .unary [placed (.number text) column] (placedNumber text column) :=
    .positive (.value (.number rfl))
  have product : Derives .multiplicative
      ([placed (.number "2") 4] ++ placed .star 5 :: [placed (.number "3") 6])
      (.binary .multiply (placedNumber "2" 4) (placedNumber "3" 6) ⟨1, 5⟩) :=
    .operation rfl (by decide) rfl (.operand rfl (number "2" 4)) (number "3" 6)
  have sum : Derives .additive ([placed (.number "1") 2] ++ placed .plus 3 :: _)
      (.binary .add (placedNumber "1" 2) _ ⟨1, 3⟩) :=
    .operation rfl (by decide) rfl (.operand rfl (.operand rfl (number "1" 2))) product
  have argument := Derives.plain (.operand rfl (.operand rfl (.operand rfl (.operand rfl sum))))
  exact .statements (.print rfl argument rfl) .noStatements

end Parse

end Pictogram
