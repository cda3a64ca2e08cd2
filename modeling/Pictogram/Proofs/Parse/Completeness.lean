import Pictogram.Parse.Statement
import Pictogram.Proofs.Parse.Grammar

/-!
# What is in the grammar is parsed

The parser reads a sentence off the front of the tokens wherever the tokens behind it
cannot be a part of it.
-/

namespace Pictogram
namespace Parse

open Grammar (Category Value Derives Phrase Spells)

/-- The parse gives the value and leaves the rest. -/
def Reads
    {α : Type}
    {tokens : List Token}
    (outcome : Outcome α tokens)
    (value : α)
    (rest : List Token) : Prop :=
  ∃ shorter, outcome = .ok ⟨value, rest, shorter⟩

section Reads

variable {α β : Type} {tokens others rest middle : List Token} {construct : Construct}

/-- Two parses that read one behind the other read together. -/
theorem Reads.bind
    {first : Outcome α tokens}
    {next : Progress α tokens → Outcome β others}
    {value : α}
    {result : β}
    (firstReads : Reads first value middle)
    (nextReads : ∀ shorter, Reads (next ⟨value, middle, shorter⟩) result rest) :
    Reads (first >>= next) result rest := by
  obtain ⟨shorter, rfl⟩ := firstReads
  exact nextReads shorter

theorem Reads.ok (progress : Progress α tokens) :
    Reads (.ok progress) progress.value progress.rest :=
  ⟨progress.shorter, rfl⟩

/-- A token of the expected kind is read. -/
theorem expect_reads
    {token : Token}
    {kind : Token.Kind}
    {fault : Token.Kind → Fault}
    (isKind : token.kind = kind) :
    Reads (expect construct kind fault (token :: rest)) token rest := by
  rw [expect, if_pos isKind]
  exact .ok _

/-- A name is read where one is expected. -/
theorem expectName_reads
    {token : Token}
    {text : String}
    {after : Token.Kind}
    (isName : token.kind = .identifier text) :
    Reads (expectName construct after (token :: rest)) ⟨text, token.position⟩ rest := by
  simp only [expectName, isName]
  exact .ok _

end Reads

/-- No operator of the levels comes next, and no value. -/
structure Stops (levels : List Level) (rest : List Token) : Prop where
  noValue : (current rest).kind.startsLiteral = false
  noOperator : ∀ level ∈ levels, Level.operator? level (current rest).kind = none

theorem Stops.tail {levels : List Level} {rest : List Token} (stops : Stops levels rest) :
    Stops levels.tail rest :=
  ⟨stops.noValue, fun level present => stops.noOperator level (List.mem_of_mem_tail present)⟩

/-- What comes next cannot be a part of an expression. -/
structure Ends (rest : List Token) : Prop extends Stops ladder rest where
  noAssignment : (current rest).kind ≠ .assign

/-- A stop, the beginning of a block, the word of a bound or a parenthesis ends an expression. -/
theorem ends_of_kind
    {token : Token}
    {kind : Token.Kind}
    (isKind : token.kind = kind)
    (isEnd : kind ∈ [.stop, .blockOpen, .toWord, .rightParen])
    (rest : List Token) :
    Ends (token :: rest) := by
  have next : (current (token :: rest)).kind = kind := isKind
  simp only [List.mem_cons, List.not_mem_nil, or_false] at isEnd
  refine ⟨⟨?_, ?_⟩, ?_⟩ <;> rw [next] <;> rcases isEnd with rfl | rfl | rfl | rfl <;> decide

/-- No two operators are written with one token. -/
theorem token_injective {left right : BinaryOperator} (same : left.token = right.token) :
    left = right := by
  cases left <;> cases right <;> first | rfl | cases same

/-- An operator is found at its level by its token. -/
theorem operator?_token {level : Level} {operator : BinaryOperator} (isOperator : operator ∈ level) :
    level.operator? operator.token = some operator := by
  cases found : level.operator? operator.token with
  | none => simpa using List.find?_eq_none.mp found operator isOperator
  | some other =>
      have same : other.token = operator.token := by simpa using List.find?_some found
      rw [token_injective same]

/-- The operations of a level end where none of its operators follows. -/
theorem operations_stop
    {construct : Construct}
    {level : Level}
    {tighter : List Level}
    {tokens : List Token}
    {left : Progress Expression tokens}
    (stops : level.operator? (current left.rest).kind = none) :
    operations construct level tighter left = .ok left := by
  unfold operations
  split
  · rfl
  · next token rest isRest =>
      have noOperator : level.operator? token.kind = none := by
        rw [isRest] at stops
        exact stops
      rw [noOperator]

/-- An operator and its right operand are taken into the expression on the left. -/
theorem operations_step
    {construct : Construct}
    {level : Level}
    {tighter : List Level}
    {tokens more rest : List Token}
    {token : Token}
    {operator : BinaryOperator}
    {left right : Expression}
    {shorter : (token :: more).length < tokens.length}
    (isOperator : level.operator? token.kind = some operator)
    (reads : Reads (binary construct tighter more) right rest) :
    ∃ fewer, operations construct level tighter (⟨left, token :: more, shorter⟩ : Progress _ tokens) =
      operations construct level tighter
        ⟨.binary operator left right token.position, rest, fewer⟩ := by
  obtain ⟨rightShorter, read⟩ := reads
  have fewer : rest.length < tokens.length :=
    Nat.lt_trans rightShorter (Nat.lt_of_succ_lt shorter)
  refine ⟨fewer, ?_⟩
  conv =>
    lhs
    unfold operations
  simp only [isOperator, read]
  rfl

/-- The levels of operators that the parser climbs for a category. -/
inductive Climbs : Category → List Level → Prop where
  | unary : Climbs .unary []
  | level
    {category tighter : Category}
    {operators : Level}
    {levels : List Level}
    (level : category.level? = some (operators, tighter))
    (above : Climbs tighter levels) : Climbs category (operators :: levels)

theorem climbs_ladder : Climbs .or ladder :=
  .level rfl (.level rfl (.level rfl (.level rfl (.level rfl (.level rfl .unary)))))

/-- The levels of operators from those of a category on. -/
def levelsOf : Category → List Level
  | .or => ladder
  | .and => ladder.drop 1
  | .equality => ladder.drop 2
  | .relational => ladder.drop 3
  | .additive => ladder.drop 4
  | .multiplicative => ladder.drop 5
  | .expression | .unary | .primary => []

/-- A category is climbed along its own levels. -/
theorem Climbs.eq_levelsOf {category : Category} {levels : List Level}
    (climbs : Climbs category levels) : levels = levelsOf category := by
  induction climbs with
  | unary => rfl
  | @level category _ _ _ isLevel _ inductionHypothesis =>
      subst inductionHypothesis
      cases category <;> cases isLevel <;> rfl

/-- An operator ends the operand before it. -/
theorem stops_operator
    {category tighter : Category}
    {level : Level}
    {levels : List Level}
    {operator : BinaryOperator}
    {sign : Token}
    (isLevel : category.level? = some (level, tighter))
    (above : Climbs tighter levels)
    (isOperator : operator ∈ level)
    (isSign : sign.kind = operator.token)
    (rest : List Token) :
    Stops levels (sign :: rest) := by
  obtain rfl := above.eq_levelsOf
  have next : (current (sign :: rest)).kind = operator.token := isSign
  have noOperator : ∀ operator ∈ level, ∀ other ∈ levelsOf tighter,
      Level.operator? other operator.token = none := by
    cases category <;> cases isLevel <;> decide
  constructor
  · rw [next]
    cases operator <;> rfl
  · rw [next]
    exact noOperator operator isOperator

/-- What the parser takes for a single token is one that the grammar allows. -/
theorem value_of_atom?
    {token : Token}
    {e : Expression}
    (isAtom : atom? token.kind token.position = some e) : Value token e := by
  unfold atom? at isAtom
  split at isAtom
  · next isNumber => cases isAtom; exact .number isNumber
  · next isString => cases isAtom; exact .string isString
  · next isTrue => cases isAtom; exact .yes isTrue
  · next isFalse => cases isAtom; exact .no isFalse
  · next isNull => cases isAtom; exact .null isNull
  · next isName => cases isAtom; exact .name isName
  · cases isAtom

/-- Every value of a single token is taken for one by the parser. -/
theorem atom?_eq_some {token : Token} {e : Expression} (isValue : Value token e) :
    atom? token.kind token.position = some e := by
  cases isValue with
  | number isKind | string isKind | yes isKind | no isKind | null isKind | name isKind =>
      rw [isKind]
      rfl

/-- A value of a single token is read, if no other value follows. -/
theorem single_reads
    {construct : Construct}
    {token : Token}
    {e : Expression}
    {rest : List Token}
    (isValue : Value token e)
    (stops : Stops [] rest) :
    Reads (single construct token rest) e rest := by
  simp only [single, atom?_eq_some isValue, stops.noValue]
  exact .ok _

/-- Behind a name at the front of an expression there is no assignment, unless the
expression is one. -/
theorem noAssignment_behind
    {category : Category}
    {name : Token}
    {text : String}
    {tokens : List Token}
    {e : Expression}
    (derived : Derives category tokens e)
    (notExpression : category ≠ .expression)
    (isName : name.kind = .identifier text)
    {more : List Token}
    (begins : tokens = name :: more)
    {rest : List Token}
    (restNot : (current rest).kind ≠ .assign) :
    (current (more ++ rest)).kind ≠ .assign := by
  induction derived generalizing more rest with
  | assign => exact absurd rfl notExpression
  | plain => exact absurd rfl notExpression
  | @operand category tighter _ _ _ level _ inductionHypothesis =>
      have tighterNot : tighter ≠ .expression := by
        rintro rfl
        cases category <;> cases level
      exact inductionHypothesis tighterNot begins restNot
  | @operation _ _ _ operator sign leftTokens rightTokens _ _ _ _ isSign first _ firstHypothesis =>
      obtain ⟨token, leftMore, rfl, -⟩ := first.begins
      obtain ⟨rfl, rfl⟩ := List.cons.inj begins
      have behind : leftMore.append (sign :: rightTokens) ++ rest =
          leftMore ++ sign :: (rightTokens ++ rest) := List.append_assoc ..
      rw [behind]
      refine firstHypothesis notExpression rfl ?_
      show sign.kind ≠ .assign
      rw [isSign]
      cases operator <;> decide
  | negate isSign =>
      obtain ⟨rfl, -⟩ := List.cons.inj begins
      rw [isSign] at isName
      cases isName
  | positive _ inductionHypothesis => exact inductionHypothesis nofun begins restNot
  | value =>
      obtain ⟨-, rfl⟩ := List.cons.inj begins
      exact restNot
  | group isOpen =>
      obtain ⟨rfl, -⟩ := List.cons.inj begins
      rw [isOpen] at isName
      cases isName

/-- What does not begin as an assignment is parsed from the loosest level. -/
theorem expression_eq_binary
    {construct : Construct}
    {tokens : List Token}
    (plain : ∀ name sign more text, tokens = name :: sign :: more →
      name.kind = .identifier text → sign.kind ≠ .assign) :
    expression construct tokens = binary construct ladder tokens := by
  unfold expression
  split
  · exact absurd rfl (plain _ _ _ _ rfl rfl)
  · rfl

theorem unary_eq_primary
    {construct : Construct}
    {tokens : List Token}
    (noMinus : (current tokens).kind ≠ .minus) :
    unary construct tokens = primary construct tokens := by
  unfold unary
  split
  · exact absurd rfl noMinus
  · rfl

theorem primary_eq_single
    {construct : Construct}
    {token : Token}
    {rest : List Token}
    (notOpen : token.kind ≠ .leftParen) :
    primary construct (token :: rest) = single construct token rest := by
  rw [primary]
  rintro span position rfl
  exact notOpen rfl

/-- The parser has read a first operand of the loosest level, or all there is if there is
no level. -/
def Arrives
    (construct : Construct)
    (levels : List Level)
    (tokens : List Token)
    (e : Expression)
    (rest : List Token) : Prop :=
  match levels with
  | [] => Reads (unary construct tokens) e rest
  | level :: tighter =>
    ∃ shorter, binary construct (level :: tighter) tokens =
      operations construct level tighter ⟨e, rest, shorter⟩

/-- Once the parser has arrived, it reads the expression if no more operations follow. -/
theorem Arrives.reads
    {construct : Construct}
    {levels : List Level}
    {tokens rest : List Token}
    {e : Expression}
    (arrives : Arrives construct levels tokens e rest)
    (stops : Stops levels rest) :
    Reads (binary construct levels tokens) e rest := by
  cases levels with
  | nil =>
      rw [binary]
      exact arrives
  | cons level tighter =>
      obtain ⟨shorter, same⟩ := arrives
      rw [same, operations_stop (stops.noOperator level List.mem_cons_self)]
      exact .ok _

/-- What the parser does with an expression of a category.  Of a binary category it is
said up to the operations that may follow. -/
structure Completes (category : Category) (tokens : List Token) (e : Expression) : Prop where
  whole : category = .expression → ∀ {construct : Construct} {rest : List Token}, Ends rest →
    Reads (expression construct (tokens ++ rest)) e rest
  climbs : ∀ {levels : List Level}, Climbs category levels →
    ∀ {construct : Construct} {rest : List Token}, Stops levels.tail rest →
    Arrives construct levels (tokens ++ rest) e rest
  primary : category = .primary → ∀ {construct : Construct} {rest : List Token}, Stops [] rest →
    Reads (primary construct (tokens ++ rest)) e rest

theorem not_climbs_expression {levels : List Level} : ¬Climbs .expression levels := by
  rintro (_ | ⟨level, -⟩)
  cases level

theorem not_climbs_primary {levels : List Level} : ¬Climbs .primary levels := by
  rintro (_ | ⟨level, -⟩)
  cases level

theorem Completes.of_whole
    {tokens : List Token}
    {e : Expression}
    (whole : ∀ {construct : Construct} {rest : List Token}, Ends rest →
      Reads (Parse.expression construct (tokens ++ rest)) e rest) :
    Completes .expression tokens e :=
  ⟨fun _ => whole, fun climbs => absurd climbs not_climbs_expression, nofun⟩

theorem Completes.of_primary
    {tokens : List Token}
    {e : Expression}
    (primary : ∀ {construct : Construct} {rest : List Token}, Stops [] rest →
      Reads (Parse.primary construct (tokens ++ rest)) e rest) :
    Completes .primary tokens e :=
  ⟨nofun, fun climbs => absurd climbs not_climbs_primary, fun _ => primary⟩

theorem Completes.of_unary
    {tokens : List Token}
    {e : Expression}
    (unary : ∀ {construct : Construct} {rest : List Token}, Stops [] rest →
      Reads (Parse.unary construct (tokens ++ rest)) e rest) :
    Completes .unary tokens e := by
  refine ⟨nofun, ?_, nofun⟩
  rintro levels (_ | ⟨level, -⟩) construct rest stops
  · exact unary stops
  · cases level

/-- For a binary category all is said by how the parser climbs. -/
theorem Completes.of_level
    {category tighter : Category}
    {level : Level}
    {tokens : List Token}
    {e : Expression}
    (isLevel : category.level? = some (level, tighter))
    (climbs : ∀ {above : List Level}, Climbs tighter above →
      ∀ {construct : Construct} {rest : List Token}, Stops above rest →
      Arrives construct (level :: above) (tokens ++ rest) e rest) :
    Completes category tokens e := by
  refine ⟨?_, ?_, ?_⟩
  · rintro rfl
    cases isLevel
  · rintro levels (_ | ⟨sameLevel, above⟩) construct rest stops
    · cases isLevel
    · obtain ⟨rfl, rfl⟩ := Prod.mk.inj (Option.some.inj (sameLevel.symm.trans isLevel))
      exact climbs above stops
  · rintro rfl
    cases isLevel

/-- The parser reads every expression of the grammar. -/
theorem completes {category : Category} {tokens : List Token} {e : Expression}
    (derived : Derives category tokens e) : Completes category tokens e := by
  induction derived with
  | @assign name sign text tokens value isName isSign _ inductionHypothesis =>
      refine .of_whole fun {construct rest} ends => ?_
      obtain ⟨_, span, position⟩ := name
      obtain ⟨_, span', position'⟩ := sign
      obtain rfl := isName
      obtain rfl := isSign
      show Reads (expression construct (_ :: _ :: (tokens ++ rest))) _ _
      rw [expression]
      exact (inductionHypothesis.whole rfl ends).bind fun shorter => .ok _
  | @plain tokens e only inductionHypothesis =>
      refine .of_whole fun {construct rest} ends => ?_
      have plain : ∀ name sign more text, tokens ++ rest = name :: sign :: more →
          name.kind = .identifier text → sign.kind ≠ .assign := by
        intro name sign more text same isName
        obtain ⟨token, others, rfl, -⟩ := only.begins
        obtain ⟨rfl, behind⟩ := List.cons.inj same
        have noAssignment := noAssignment_behind only (by decide) isName rfl ends.noAssignment
        have isNext : others ++ rest = sign :: more := behind
        rw [isNext] at noAssignment
        exact noAssignment
      rw [expression_eq_binary plain]
      exact (inductionHypothesis.climbs climbs_ladder ends.toStops.tail).reads ends.toStops
  | @operand category tighter operators tokens e level _ inductionHypothesis =>
      refine .of_level level fun {above} climbs {construct rest} stops => ?_
      obtain ⟨shorter, read⟩ := (inductionHypothesis.climbs climbs stops.tail).reads stops
      refine ⟨shorter, ?_⟩
      rw [binary, read]
      rfl
  | @operation category tighter operators operator sign leftTokens rightTokens left right level
      isOperator isSign _ _ firstHypothesis secondHypothesis =>
      refine .of_level level fun {above} climbs {construct rest} stops => ?_
      have rightReads : Reads (binary construct above (rightTokens ++ rest)) right rest :=
        (secondHypothesis.climbs climbs stops.tail).reads stops
      have signStops := stops_operator level climbs isOperator isSign (rightTokens ++ rest)
      obtain ⟨shorter, leftRead⟩ := firstHypothesis.climbs (.level level climbs) signStops
      have found : Level.operator? operators sign.kind = some operator :=
        isSign ▸ operator?_token isOperator
      obtain ⟨fewer, same⟩ := operations_step found rightReads
      rw [List.append_assoc]
      exact ⟨fewer, leftRead.trans same⟩
  | @negate sign tokens e isSign _ inductionHypothesis =>
      refine .of_unary fun {construct rest} stops => ?_
      obtain ⟨_, span, position⟩ := sign
      obtain rfl := isSign
      have argumentReads : Reads (unary construct (tokens ++ rest)) e rest :=
        inductionHypothesis.climbs .unary stops
      show Reads (unary construct (_ :: (tokens ++ rest))) _ _
      rw [unary]
      exact argumentReads.bind fun shorter => .ok _
  | @positive tokens e only inductionHypothesis =>
      refine .of_unary fun {construct rest} stops => ?_
      have noMinus : (current (tokens ++ rest)).kind ≠ .minus := by
        obtain ⟨token, more, rfl, notMinus⟩ := only.primary_begins
        exact notMinus
      rw [unary_eq_primary noMinus]
      exact inductionHypothesis.primary rfl stops
  | @value token e isValue =>
      refine .of_primary fun {construct rest} stops => ?_
      have notOpen : token.kind ≠ .leftParen := by
        intro isOpen
        have starts := isValue.startsLiteral
        rw [isOpen] at starts
        cases starts
      show Reads (primary construct (token :: rest)) _ _
      rw [primary_eq_single notOpen]
      exact single_reads isValue stops
  | @group opens closes tokens e isOpen _ isClose inductionHypothesis =>
      refine .of_primary fun {construct rest} stops => ?_
      obtain ⟨_, span, position⟩ := opens
      obtain rfl := isOpen
      have innerReads : Reads (expression construct (tokens ++ closes :: rest)) e (closes :: rest) :=
        inductionHypothesis.whole rfl (ends_of_kind isClose (by decide) rest)
      show Reads (primary construct (_ :: (tokens ++ [closes] ++ rest))) _ _
      rw [List.append_assoc, List.singleton_append, primary]
      exact innerReads.bind fun shorter => (expect_reads isClose).bind fun shorter => .ok _

/-- An expression is read wherever what comes next cannot be a part of it. -/
theorem expression_reads
    {construct : Construct}
    {tokens rest : List Token}
    {e : Expression}
    (derived : Derives .expression tokens e)
    (ends : Ends rest) :
    Reads (expression construct (tokens ++ rest)) e rest :=
  (completes derived).whole rfl ends

section Statements

variable {construct : Construct} {after : Part} {tokens rest : List Token} {e : Expression}

theorem expectStop_reads
    {α : Type}
    {stop : Token}
    {value : α}
    {shorter : (stop :: rest).length < tokens.length}
    (isStop : stop.kind = .stop) :
    Reads (expectStop construct after (⟨value, stop :: rest, shorter⟩ : Progress α tokens))
      value rest :=
  (expect_reads isStop).bind fun _ => .ok _

/-- An expression is read up to the stop behind it. -/
theorem stopped_reads
    {stop : Token}
    (derived : Derives .expression tokens e)
    (isStop : stop.kind = .stop) :
    Reads (expression construct (tokens ++ stop :: rest)) e (stop :: rest) :=
  expression_reads derived (ends_of_kind isStop (by decide) rest)

theorem printStatement_reads
    {word stop : Token}
    (argument : Derives .expression tokens e)
    (isStop : stop.kind = .stop) :
    Reads (printStatement word (tokens ++ stop :: rest)) (.print e word.position) rest :=
  (stopped_reads argument isStop).bind fun _ => (expectStop_reads isStop).bind fun _ => .ok _

/-- A declaration without a value is read up to its stop. -/
theorem declaration_reads
    {word name stop : Token}
    {text : String}
    (isName : name.kind = .identifier text)
    (isStop : stop.kind = .stop) :
    Reads (declaration word (name :: stop :: rest)) (.declare ⟨text, name.position⟩ none) rest := by
  refine (expectName_reads isName).bind fun _ => ?_
  have noSign : (current (stop :: rest)).kind ≠ .assign := by
    show stop.kind ≠ .assign
    rw [isStop]
    decide
  rw [if_neg noSign]
  exact (expectStop_reads isStop).bind fun _ => .ok _

theorem declaration_reads_init
    {word name sign stop : Token}
    {text : String}
    (isName : name.kind = .identifier text)
    (isSign : sign.kind = .assign)
    (init : Derives .expression tokens e)
    (isStop : stop.kind = .stop) :
    Reads (declaration word (name :: sign :: (tokens ++ stop :: rest)))
      (.declare ⟨text, name.position⟩ (some e)) rest := by
  refine (expectName_reads isName).bind fun _ => ?_
  have isNext : (current (sign :: (tokens ++ stop :: rest))).kind = .assign := isSign
  rw [if_pos isNext]
  exact (expect_reads isSign).bind fun _ => (stopped_reads init isStop).bind fun _ =>
    (expectStop_reads isStop).bind fun _ => .ok _

theorem expressionStatement_reads
    {stop : Token}
    (effect : Derives .expression tokens e)
    (isStop : stop.kind = .stop) :
    Reads (expressionStatement (tokens ++ stop :: rest)) (.evaluate e) rest :=
  (stopped_reads effect isStop).bind fun _ => (expectStop_reads isStop).bind fun _ => .ok _

/-- A list that begins with no word of a statement is an expression for its effect. -/
theorem statement_eq_of_no_word
    (noWord : (current tokens).kind ∉ [.printWord, .declareWord, .ifWord, .forWord, .whileWord]) :
    statement tokens = expressionStatement tokens := by
  unfold statement
  split
  · exact absurd (by simp [current]) noWord
  · exact absurd (by simp [current]) noWord
  · exact absurd (by simp [current]) noWord
  · exact absurd (by simp [current]) noWord
  · exact absurd (by simp [current]) noWord
  · rfl

/-- A statement that begins as an expression is parsed as one. -/
theorem statement_eq_expressionStatement
    (begins : Grammar.beginsExpression (current tokens).kind) :
    statement tokens = expressionStatement tokens := by
  refine statement_eq_of_no_word fun isWord => ?_
  simp only [List.mem_cons, List.not_mem_nil, or_false] at isWord
  rcases isWord with same | same | same | same | same <;>
    simp [Grammar.beginsExpression, same, Token.Kind.startsLiteral] at begins

variable {all middle more : List Token} {word : Token} {body : List Statement}

/-- The further clauses end where no other begins. -/
theorem elseIfs_stop
    {done : Progress (Array Clause) all}
    (noMore : (current done.rest).kind ≠ .elseIfWord) :
    elseIfs done = .ok done := by
  unfold elseIfs
  split
  · next isRest =>
      rw [isRest] at noMore
      exact absurd rfl noMore
  · rfl

/-- A further clause is read and gathered. -/
theorem elseIfs_step
    {done : Progress (Array Clause) all}
    (isRest : done.rest = word :: more)
    (isWord : word.kind = .elseIfWord)
    (testReads : Reads (expression .ifStatement more) e middle)
    (bodyReads : Reads (block .ifStatement .elseIfCondition middle) body rest) :
    ∃ shorter, elseIfs done = elseIfs ⟨done.value.push (.mk e body), rest, shorter⟩ := by
  obtain ⟨testShorter, testRead⟩ := testReads
  obtain ⟨bodyShorter, bodyRead⟩ := bodyReads
  have fewer : rest.length < all.length := by
    have doneShorter := done.shorter
    rw [isRest, List.length_cons] at doneShorter
    omega
  refine ⟨fewer, ?_⟩
  conv =>
    lhs
    unfold elseIfs
  split
  · next isSame =>
      obtain ⟨-, rfl⟩ := List.cons.inj (isRest.symm.trans isSame)
      rw [testRead]
      simp only [bind, Except.bind, bodyRead]
  · next noWord =>
      obtain ⟨_, span, position⟩ := word
      obtain rfl := isWord
      exact absurd isRest (noWord _ _ _)

/-- Without its word there is no alternate. -/
theorem elseBody_stop
    {done : Progress (Array Clause) all}
    (noMore : (current done.rest).kind ≠ .elseWord) :
    elseBody done = .ok (done.map fun _ => []) := by
  unfold elseBody
  split
  · next isRest =>
      rw [isRest] at noMore
      exact absurd rfl noMore
  · rfl

theorem elseBody_reads
    {done : Progress (Array Clause) all}
    (isRest : done.rest = word :: more)
    (isWord : word.kind = .elseWord)
    (bodyReads : Reads (block .ifStatement .elseWord more) body rest) :
    Reads (elseBody done) body rest := by
  unfold elseBody
  split
  · next isSame =>
      obtain ⟨-, rfl⟩ := List.cons.inj (isRest.symm.trans isSame)
      exact bodyReads.bind fun _ => .ok _
  · next noWord =>
      obtain ⟨_, span, position⟩ := word
      obtain rfl := isWord
      exact absurd isRest (noWord _ _ _)

/-- A conditional is read if its clauses and its alternate are. -/
theorem conditional_reads
    {later last : List Token}
    {clauses : List Clause}
    {alternate : List Statement}
    (isWord : word.kind = .ifWord)
    (testReads : Reads (expression .ifStatement more) e middle)
    (bodyReads : Reads (block .ifStatement .condition middle) body later)
    (clausesRead : ∀ done : Progress (Array Clause) (word :: more), done.rest = later →
      ∃ found, Array.toList found = done.value.toList ++ clauses ∧ Reads (elseIfs done) found last)
    (alternateReads : ∀ done : Progress (Array Clause) (word :: more), done.rest = last →
      Reads (elseBody done) alternate rest) :
    Reads (statement (word :: more)) (.conditional e body clauses alternate) rest := by
  obtain ⟨_, span, position⟩ := word
  obtain rfl := isWord
  rw [statement]
  refine testReads.bind fun testShorter => bodyReads.bind fun bodyShorter => ?_
  obtain ⟨found, foundIs, foundReads⟩ :=
    clausesRead ⟨#[], later, Nat.lt_succ_of_lt (Nat.lt_trans bodyShorter testShorter)⟩ rfl
  refine foundReads.bind fun _ => (alternateReads _ rfl).bind fun _ => ?_
  obtain rfl : found.toList = clauses := foundIs
  exact .ok _

/-- A counting loop is read if its bounds and its body are. -/
theorem count_reads
    {name within upTo : Token}
    {text : String}
    {later : List Token}
    {start stop : Expression}
    (isWord : word.kind = .forWord)
    (isName : name.kind = .identifier text)
    (isWithin : within.kind = .inWord)
    (startReads : Reads (expression .forStatement more) start (upTo :: later))
    (isUpTo : upTo.kind = .toWord)
    (stopReads : Reads (expression .forStatement later) stop middle)
    (bodyReads : Reads (block .forStatement .endValue middle) body rest) :
    Reads (statement (word :: name :: within :: more))
      (.count ⟨text, name.position⟩ start stop body) rest := by
  obtain ⟨_, span, position⟩ := word
  obtain rfl := isWord
  rw [statement]
  exact (expectName_reads isName).bind fun _ => (expect_reads isWithin).bind fun _ =>
    startReads.bind fun _ => (expect_reads isUpTo).bind fun _ => stopReads.bind fun _ =>
    bodyReads.bind fun _ => .ok _

theorem loop_reads
    (isWord : word.kind = .whileWord)
    (testReads : Reads (expression .whileStatement more) e middle)
    (bodyReads : Reads (block .whileStatement .condition middle) body rest) :
    Reads (statement (word :: more)) (.loop e body) rest := by
  obtain ⟨_, span, position⟩ := word
  obtain rfl := isWord
  rw [statement]
  exact testReads.bind fun _ => bodyReads.bind fun _ => .ok _

/-- A block ends where it is closed. -/
theorem statements_close
    {done : Progress (Array Statement) all}
    (isRest : done.rest = word :: rest)
    (isClose : word.kind = .blockClose) :
    Reads (statements construct done) done.value.toList rest := by
  obtain ⟨_, span, position⟩ := word
  obtain rfl := isClose
  unfold statements
  split
  · next isSame =>
      obtain ⟨-, rfl⟩ := List.cons.inj (isRest.symm.trans isSame)
      exact .ok _
  · next isSame => cases isRest.symm.trans isSame
  · next isSame => cases isRest.symm.trans isSame
  · next noClose _ isSame =>
      obtain ⟨rfl, rfl⟩ := List.cons.inj (isRest.symm.trans isSame)
      exact (noClose _ _ rfl).elim

/-- A block that is not closed before the end of the input is refused. -/
theorem statements_end
    {done : Progress (Array Statement) all}
    (isEnd : (current done.rest).kind = .endOfInput) :
    statements construct done = fail construct .unclosedBlock done.rest := by
  unfold statements
  split
  · next isRest =>
      rw [isRest] at isEnd
      cases isEnd
  · next isRest => rw [isRest]
  · next isRest => rw [isRest]
  · next token rest _ notEnd isRest =>
      rw [isRest] at isEnd
      obtain ⟨_, span, position⟩ := token
      obtain rfl : _ = Token.Kind.endOfInput := isEnd
      exact (notEnd _ _ rfl).elim

/-- Anything else in a block is a statement, behind which the block goes on. -/
theorem statements_eq
    {done : Progress (Array Statement) all}
    (isRest : done.rest = word :: more)
    (notClose : word.kind ≠ .blockClose)
    (notEnd : word.kind ≠ .endOfInput) :
    statements construct done = (statement (word :: more) >>= fun next =>
      statements construct ⟨done.value.push next.value, next.rest,
        Nat.lt_trans next.shorter (isRest ▸ done.shorter)⟩) := by
  conv =>
    lhs
    unfold statements
  split
  · next isSame =>
      obtain ⟨rfl, -⟩ := List.cons.inj (isRest.symm.trans isSame)
      exact absurd rfl notClose
  · next isSame =>
      obtain ⟨rfl, -⟩ := List.cons.inj (isRest.symm.trans isSame)
      exact absurd rfl notEnd
  · next isSame => cases isRest.symm.trans isSame
  · next isSame =>
      obtain ⟨rfl, rfl⟩ := List.cons.inj (isRest.symm.trans isSame)
      rfl

end Statements

/-- What comes next is no further clause of a conditional. -/
def NoClause (rest : List Token) : Prop :=
  (current rest).kind ≠ .elseIfWord ∧ (current rest).kind ≠ .elseWord

/-- What the parser does with the tokens of a phrase. -/
def CompletesPhrase (tokens : List Token) : Phrase → Prop
  | .statement s => ∀ {rest : List Token}, NoClause rest →
    Reads (statement (tokens ++ rest)) s rest
  | .block body => ∀ {construct : Construct} {after : Part} {rest : List Token},
    Reads (block construct after (tokens ++ rest)) body rest
  | .clauses elseIfs => ∀ {all rest : List Token} (done : Progress (Array Clause) all),
    done.rest = tokens ++ rest → (current rest).kind ≠ .elseIfWord →
    ∃ found, Array.toList found = done.value.toList ++ elseIfs ∧ Reads (Parse.elseIfs done) found rest
  | .alternate body => ∀ {all rest : List Token} (done : Progress (Array Clause) all),
    done.rest = tokens ++ rest → (current rest).kind ≠ .elseWord →
    Reads (elseBody done) body rest
  | .statements body => ∀ {construct : Construct} {all rest : List Token} {closes : Token}
      (done : Progress (Array Statement) all),
    closes.kind = .blockClose → done.rest = tokens ++ closes :: rest →
    Reads (statements construct done) (done.value.toList ++ body) rest

/-- The beginning of a block ends an expression. -/
theorem ends_block
    {tokens : List Token}
    {body : List Statement}
    (spells : Spells tokens (.block body))
    (rest : List Token) :
    Ends (tokens ++ rest) := by
  cases spells with
  | block isOpen => exact ends_of_kind isOpen (by decide) _

/-- No further clause comes behind statements, unless one comes next. -/
theorem NoClause.behind_statements
    {tokens rest : List Token}
    {list : List Statement}
    (noClause : NoClause rest)
    (spells : Spells tokens (.statements list)) :
    NoClause (tokens ++ rest) := by
  cases spells with
  | noStatements => exact noClause
  | statements head =>
      obtain ⟨token, more, rfl, notLast⟩ := head.statement_begins
      simp only [List.mem_cons, not_or] at notLast
      exact ⟨notLast.1, notLast.2.1⟩

/-- Where an alternate may stand, even an empty one, no further clause begins. -/
theorem NoClause.behind_alternate
    {tokens rest : List Token}
    {body : List Statement}
    (noClause : NoClause rest)
    (spells : Spells tokens (.alternate body)) :
    (current (tokens ++ rest)).kind ≠ .elseIfWord := by
  cases spells with
  | noAlternate => exact noClause.1
  | @alternate word _ _ isWord =>
      show word.kind ≠ .elseIfWord
      rw [isWord]
      decide

/-- The parser reads every phrase of the grammar. -/
theorem completesPhrase {tokens : List Token} {phrase : Phrase} (spells : Spells tokens phrase) :
    CompletesPhrase tokens phrase := by
  induction spells with
  | @print word stop tokens e isWord argument isStop =>
      intro rest _
      obtain ⟨_, span, position⟩ := word
      obtain rfl := isWord
      show Reads (statement (_ :: (tokens ++ [stop] ++ rest))) _ _
      rw [List.append_assoc, List.singleton_append, statement]
      exact printStatement_reads argument isStop
  | @declare word name stop text isWord isName isStop =>
      intro rest _
      obtain ⟨_, span, position⟩ := word
      obtain rfl := isWord
      show Reads (statement (_ :: name :: stop :: rest)) _ _
      rw [statement]
      exact declaration_reads isName isStop
  | @declareWith word name sign stop text tokens e isWord isName isSign init isStop =>
      intro rest _
      obtain ⟨_, span, position⟩ := word
      obtain rfl := isWord
      show Reads (statement (_ :: name :: sign :: (tokens ++ [stop] ++ rest))) _ _
      rw [List.append_assoc, List.singleton_append, statement]
      exact declaration_reads_init isName isSign init isStop
  | @conditional word testTokens bodyTokens clausesTokens alternateTokens e body alternate elseIfs
      isWord test chosen _ otherwise bodyHypothesis clausesHypothesis alternateHypothesis =>
      intro rest noClause
      have regroup : testTokens ++ (bodyTokens ++ (clausesTokens ++ alternateTokens)) ++ rest =
          testTokens ++ (bodyTokens ++ (clausesTokens ++ (alternateTokens ++ rest))) := by simp
      rw [List.cons_append, regroup]
      exact conditional_reads isWord (expression_reads test (ends_block chosen _)) bodyHypothesis
        (fun done isRest => clausesHypothesis done isRest (noClause.behind_alternate otherwise))
        (fun done isRest => alternateHypothesis done isRest noClause.2)
  | @count word name within upTo text startTokens stopTokens bodyTokens start stop body isWord
      isName isWithin first isUpTo last each bodyHypothesis =>
      intro rest _
      have regroup : startTokens ++ upTo :: (stopTokens ++ bodyTokens) ++ rest =
          startTokens ++ upTo :: (stopTokens ++ (bodyTokens ++ rest)) := by simp
      rw [List.cons_append, List.cons_append, List.cons_append, regroup]
      exact count_reads isWord isName isWithin
        (expression_reads first (ends_of_kind isUpTo (by decide) _)) isUpTo
        (expression_reads last (ends_block each _)) bodyHypothesis
  | @loop word testTokens bodyTokens e body isWord test each bodyHypothesis =>
      intro rest _
      rw [List.cons_append, List.append_assoc]
      exact loop_reads isWord (expression_reads test (ends_block each _)) bodyHypothesis
  | @evaluate stop tokens e effect isStop =>
      intro rest _
      have begins : Grammar.beginsExpression (current (tokens ++ stop :: rest)).kind := by
        obtain ⟨token, more, rfl, begins⟩ := effect.begins
        exact begins
      rw [List.append_assoc, List.singleton_append, statement_eq_expressionStatement begins]
      exact expressionStatement_reads effect isStop
  | @block opens closes tokens body isOpen _ isClose inductionHypothesis =>
      intro construct after rest
      show Reads (block construct after (opens :: (tokens ++ [closes] ++ rest))) _ _
      rw [List.append_assoc, List.singleton_append, block]
      exact (expect_reads isOpen).bind fun _ => inductionHypothesis _ isClose rfl
  | noClauses =>
      intro all rest done isRest noMore
      refine ⟨done.value, by simp, ?_⟩
      have isRest : done.rest = rest := isRest
      rw [elseIfs_stop (isRest ▸ noMore)]
      exact isRest ▸ .ok done
  | @clause word testTokens bodyTokens restTokens e body clauses isWord test chosen _
      bodyHypothesis restHypothesis =>
      intro all rest done isRest noMore
      have isNext : done.rest = word :: (testTokens ++ (bodyTokens ++ (restTokens ++ rest))) := by
        simpa using isRest
      obtain ⟨shorter, same⟩ := elseIfs_step isNext isWord
        (expression_reads test (ends_block chosen _)) bodyHypothesis
      obtain ⟨found, foundIs, reads⟩ := restHypothesis
        ⟨done.value.push (.mk e body), restTokens ++ rest, shorter⟩ rfl noMore
      exact ⟨found, by simpa using foundIs, same ▸ reads⟩
  | noAlternate =>
      intro all rest done isRest noMore
      have isRest : done.rest = rest := isRest
      rw [elseBody_stop (isRest ▸ noMore)]
      exact isRest ▸ .ok _
  | @alternate word tokens body isWord _ inductionHypothesis =>
      intro all rest done isRest noMore
      exact elseBody_reads isRest isWord inductionHypothesis
  | noStatements =>
      intro construct all rest closes done isClose isRest
      rw [List.append_nil]
      exact statements_close isRest isClose
  | @statements firstTokens restTokens first list head tail headHypothesis tailHypothesis =>
      intro construct all rest closes done isClose isRest
      have noClause : NoClause (restTokens ++ closes :: rest) := by
        refine NoClause.behind_statements ?_ tail
        unfold NoClause
        rw [current, isClose]
        decide
      obtain ⟨word, more, rfl, notLast⟩ := head.statement_begins
      have isNext : done.rest = word :: (more ++ (restTokens ++ closes :: rest)) := by
        simpa using isRest
      have pushed : (done.value.push first).toList ++ list =
          done.value.toList ++ first :: list := by simp
      simp only [List.mem_cons, List.not_mem_nil, or_false, not_or] at notLast
      rw [statements_eq isNext notLast.2.2.1 notLast.2.2.2, ← pushed]
      exact (headHypothesis noClause).bind fun _ => tailHypothesis _ isClose rfl

/-- The statements of a program are read up to the end of the input behind them. -/
theorem program_complete
    {tokens rest : List Token}
    {list : List Statement}
    {done : Array Statement}
    (spells : Spells tokens (.statements list))
    (isEnd : (current rest).kind = .endOfInput) :
    program done (tokens ++ rest) = .ok (done.toList ++ list, rest) := by
  induction list generalizing tokens done with
  | nil =>
      cases spells
      rw [List.nil_append, List.append_nil, program, if_pos isEnd]
  | cons first others inductionHypothesis =>
      cases spells with
      | @statements firstTokens restTokens _ _ head tail =>
          have noClause : NoClause (restTokens ++ rest) := by
            refine NoClause.behind_statements ?_ tail
            unfold NoClause
            rw [isEnd]
            decide
          have notEnd : (current (firstTokens ++ (restTokens ++ rest))).kind ≠ .endOfInput := by
            obtain ⟨token, more, rfl, notLast⟩ := head.statement_begins
            intro same
            have isKind : token.kind = .endOfInput := same
            simp [isKind] at notLast
          have headReads : Reads (statement (firstTokens ++ (restTokens ++ rest))) first
              (restTokens ++ rest) := completesPhrase head noClause
          obtain ⟨shorter, read⟩ := headReads
          rw [List.append_assoc, program, if_neg notEnd, read]
          have restRead : program (done.push first) (restTokens ++ rest) =
              .ok ((done.push first).toList ++ others, rest) := inductionHypothesis tail
          rw [Array.toList_push, List.append_assoc] at restRead
          exact restRead

end Parse
end Pictogram
