import Pictogram.Proofs.Parse.Language
import Pictogram.Proofs.Syntax.Relabel
import Pictogram.Proofs.Token.Joining

/-!
# Programs one below the other

The statements of two programs with a line feed between them are those of the first and
then those of the second, further down.
-/

namespace Pictogram
namespace Grammar

/-! ## Sentences moved to another place -/

/-- What tokens stand for, relabelled. -/
def Phrase.relabel (relabel : Relabel) : Phrase → Phrase
  | .statement only => .statement (only.relabel relabel)
  | .block body => .block (Program.relabel relabel body)
  | .clauses all => .clauses (relabelClauses relabel all)
  | .alternate body => .alternate (Program.relabel relabel body)
  | .statements all => .statements (Program.relabel relabel all)

/-- A move keeps the kinds of tokens and changes their positions in one way. -/
structure Moves (place : Position → Position) (move : Token → Token) : Prop where
  kind_eq : ∀ token, (move token).kind = token.kind
  position_eq : ∀ token, (move token).position = place token.position

variable {place : Position → Position} {move : Token → Token}

/-- A moved token has the same value, at its new place. -/
theorem Value.moved
    {token : Token}
    {e : Expression}
    (isValue : Value token e)
    (moves : Moves place move) :
    Value (move token) (e.relabel (.moving place)) := by
  have kind := moves.kind_eq token
  cases isValue with
  | number isKind | string isKind | yes isKind | no isKind | null isKind | name isKind =>
      rw [isKind] at kind
      simp only [Expression.relabel, Identifier.relabel, Relabel.moving, ← moves.position_eq, id]
      constructor
      exact kind

/-- Moving the tokens of an expression moves the expression. -/
theorem Derives.moved
    {category : Category}
    {tokens : List Token}
    {e : Expression}
    (derived : Derives category tokens e)
    (moves : Moves place move) :
    Derives category (tokens.map move) (e.relabel (.moving place)) := by
  have kept {token : Token} {kind : Token.Kind} (isKind : token.kind = kind) :
      (move token).kind = kind := (moves.kind_eq token).trans isKind
  induction derived with
  | assign isName isSign _ assigned =>
      have whole := Derives.assign (kept isName) (kept isSign) assigned
      rwa [moves.position_eq] at whole
  | plain _ only => exact .plain only
  | operand level _ only => exact .operand level only
  | operation level isOperator isSign _ _ first second =>
      have whole := Derives.operation level isOperator (kept isSign) first second
      rw [moves.position_eq] at whole
      rwa [List.map_append]
  | negate isSign _ argument =>
      have whole := Derives.negate (kept isSign) argument
      rwa [moves.position_eq] at whole
  | positive _ only => exact .positive only
  | value isValue => exact .value (isValue.moved moves)
  | group isOpen _ isClose inner =>
      rw [List.map_cons, List.map_append]
      exact .group (kept isOpen) inner (kept isClose)

/-- Moving the tokens of a sentence moves what they stand for. -/
theorem Spells.moved
    {tokens : List Token}
    {phrase : Phrase}
    (spells : Spells tokens phrase)
    (moves : Moves place move) :
    Spells (tokens.map move) (phrase.relabel (.moving place)) := by
  have kept {token : Token} {kind : Token.Kind} (isKind : token.kind = kind) :
      (move token).kind = kind := (moves.kind_eq token).trans isKind
  induction spells with
  | print isWord argument isStop =>
      have whole := Spells.print (kept isWord) (argument.moved moves) (kept isStop)
      rw [moves.position_eq] at whole
      rwa [List.map_cons, List.map_append]
  | declare isWord isName isStop =>
      have whole := Spells.declare (kept isWord) (kept isName) (kept isStop)
      rwa [moves.position_eq] at whole
  | declareWith isWord isName isSign init isStop =>
      have whole := Spells.declareWith (kept isWord) (kept isName) (kept isSign)
        (init.moved moves) (kept isStop)
      rw [moves.position_eq] at whole
      simp only [List.map_cons, List.map_append]
      exact whole
  | conditional isWord test _ _ _ body clauses alternate =>
      have whole := Spells.conditional (kept isWord) (test.moved moves) body clauses alternate
      simp only [List.map_cons, List.map_append]
      exact whole
  | count isWord isName isWithin first isUpTo last _ body =>
      have whole := Spells.count (kept isWord) (kept isName) (kept isWithin) (first.moved moves)
        (kept isUpTo) (last.moved moves) body
      rw [moves.position_eq] at whole
      simp only [List.map_cons, List.map_append]
      exact whole
  | loop isWord test _ body =>
      have whole := Spells.loop (kept isWord) (test.moved moves) body
      simp only [List.map_cons, List.map_append]
      exact whole
  | evaluate effect isStop =>
      rw [List.map_append]
      exact .evaluate (effect.moved moves) (kept isStop)
  | block isOpen _ isClose inner =>
      rw [List.map_cons, List.map_append]
      exact .block (kept isOpen) inner (kept isClose)
  | noClauses => exact .noClauses
  | clause isWord test _ _ body rest =>
      have whole := Spells.clause (kept isWord) (test.moved moves) body rest
      simp only [List.map_cons, List.map_append]
      exact whole
  | noAlternate => exact .noAlternate
  | alternate isWord _ body => exact .alternate (kept isWord) body
  | noStatements => exact .noStatements
  | statements _ _ first rest =>
      rw [List.map_append]
      exact .statements first rest

/-! ## Programs one after another -/

/-- Statements in a row are those of the first tokens and then those of the others. -/
theorem Spells.append
    {tokens more : List Token}
    {program others : List Statement}
    (spells : Spells tokens (.statements program))
    (moreSpells : Spells more (.statements others)) :
    Spells (tokens ++ more) (.statements (program ++ others)) := by
  induction program generalizing tokens with
  | nil =>
      cases spells
      exact moreSpells
  | cons first rest inductionHypothesis =>
      cases spells with
      | statements head tail =>
          rw [List.append_assoc]
          exact .statements head (inductionHypothesis tail)

/-- The last token is one that a statement or a block may end with. -/
def Closes (tokens : List Token) : Prop :=
  ∃ front last, tokens = front ++ [last] ∧ (last.kind = .stop ∨ last.kind = .blockClose)

/-- How tokens end does not depend on what is in front of them. -/
theorem Closes.append {tokens : List Token} (closes : Closes tokens) (front : List Token) :
    Closes (front ++ tokens) := by
  obtain ⟨middle, last, rfl, isKind⟩ := closes
  exact ⟨front ++ middle, last, by rw [List.append_assoc], isKind⟩

/-- What closes stays closed, unless more follows that does not close. -/
theorem Closes.append_of_nil_or
    {tokens more : List Token}
    (closes : Closes tokens)
    (moreCloses : more = [] ∨ Closes more) :
    Closes (tokens ++ more) := by
  rcases moreCloses with rfl | moreCloses
  · rwa [List.append_nil]
  · exact moreCloses.append tokens

/-- How the tokens of a phrase end. -/
def Phrase.Ends (tokens : List Token) : Phrase → Prop
  | .statement _ | .block _ => Closes tokens
  | .clauses _ | .alternate _ | .statements _ => tokens = [] ∨ Closes tokens

/-- Every phrase ends as its kind does. -/
theorem Spells.ends {tokens : List Token} {phrase : Phrase} (spells : Spells tokens phrase) :
    phrase.Ends tokens := by
  induction spells with
  | @print word stop tokens _ _ _ isStop => exact ⟨word :: tokens, stop, rfl, .inl isStop⟩
  | @declare word name stop _ _ _ isStop => exact ⟨[word, name], stop, rfl, .inl isStop⟩
  | @declareWith word name sign stop _ tokens _ _ _ _ _ isStop =>
      exact ⟨word :: name :: sign :: tokens, stop, rfl, .inl isStop⟩
  | @conditional word testTokens _ _ _ _ _ _ _ _ _ _ _ _ body clauses alternate =>
      refine Closes.append ?_ (word :: testTokens)
      refine body.append_of_nil_or ?_
      rcases clauses with rfl | clauses
      · exact alternate
      · exact .inr (clauses.append_of_nil_or alternate)
  | @count word name within upTo _ startTokens stopTokens _ _ _ _ _ _ _ _ _ _ _ body =>
      have whole := body.append (word :: name :: within :: (startTokens ++ upTo :: stopTokens))
      simpa [Phrase.Ends] using whole
  | @loop word testTokens _ _ _ _ _ _ body => exact body.append (word :: testTokens)
  | @evaluate stop tokens _ _ isStop => exact ⟨tokens, stop, rfl, .inl isStop⟩
  | @block opens closes tokens _ _ _ isClose => exact ⟨opens :: tokens, closes, rfl, .inr isClose⟩
  | noClauses => exact .inl rfl
  | @clause word testTokens _ _ _ _ _ _ _ _ _ body rest =>
      exact .inr ((body.append_of_nil_or rest).append (word :: testTokens))
  | noAlternate => exact .inl rfl
  | @alternate word _ _ _ _ body => exact .inr (body.append [word])
  | noStatements => exact .inl rfl
  | statements _ _ first rest => exact .inr (first.append_of_nil_or rest)

end Grammar

/-! ## Sources one below the other -/

open Grammar (Endless Spells)

theorem Token.moves_below (bytes lines : Nat) :
    Grammar.Moves (Position.below lines) (Token.below bytes lines) :=
  ⟨fun _ => rfl, fun _ => rfl⟩

/-- The end of the input is the last token, and the only one of its kind. -/
theorem tokenize_split (source : String) :
    ∃ front ending, tokenize source = front ++ [ending] ∧ Endless front ∧
      ending.kind = .endOfInput := by
  obtain ⟨all, made, covers⟩ := Scan.tokensFrom_covers (.ofText source) #[]
  obtain ⟨tokens, position, isAll, faithful, -⟩ := covers.faithful [] rfl rfl
  refine ⟨tokens, .endOfInput source.utf8ByteSize position, ?_, faithful.kinds, rfl⟩
  simp [tokenize, made, isAll]

/-- Two sources with a line feed between them, each of which is a program, are a program: the
statements of the first, and those of the second below them. -/
theorem parse_join
    {first second : String}
    {earlier later : Program}
    (firstParsed : parse first = .ok earlier)
    (secondParsed : parse second = .ok later) :
    parse (first ++ "\n" ++ second) =
      .ok (earlier ++ Program.relabel (.moving (.below (lineEnds (first ++ "\n")))) later) := by
  have firstSpells := Parse.parseTokens_sound firstParsed
  have secondSpells := Parse.parseTokens_sound secondParsed
  obtain ⟨front, ending, firstSplit, firstEndless, isEnd⟩ := tokenize_split first
  obtain ⟨back, last, secondSplit, secondEndless, isLast⟩ := tokenize_split second
  have whole (front : List Token) (endless : Endless front) (last : Token)
      (isLast : last.kind = .endOfInput) : Parse.beforeEnd (front ++ [last]) = front :=
    Parse.beforeEnd_append endless isLast
  rw [firstSplit, whole front firstEndless ending isEnd] at firstSpells
  rw [secondSplit, whole back secondEndless last isLast] at secondSpells
  have closed : ∀ token ∈ Scan.lastToken? (tokenize first), ∀ text,
      token.kind ≠ .string text := by
    intro token isToken text isString
    rw [firstSplit, Scan.lastToken?, List.dropLast_concat] at isToken
    rcases firstSpells.ends with rfl | ⟨before, stop, rfl, isKind⟩
    · cases isToken
    · obtain rfl : stop = token := by simpa using isToken
      rw [isString] at isKind
      rcases isKind with same | same <;> cases same
  have moves := Token.moves_below (first ++ "\n").utf8ByteSize (lineEnds (first ++ "\n"))
  have spells := firstSpells.append (secondSpells.moved moves)
  refine Parse.parseTokens_complete ?_
  rw [tokenize_join first second closed, firstSplit, List.dropLast_concat, secondSplit,
    List.map_append, List.map_singleton, ← List.append_assoc,
    whole _ spells.endless (last.below _ _) isLast]
  exact spells

end Pictogram
