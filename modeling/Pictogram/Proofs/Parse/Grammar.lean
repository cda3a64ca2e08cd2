import Pictogram.Parse.Number
import Pictogram.Syntax
import Pictogram.Token

/-!
# The grammar

Which token lists are expressions, statements and programs, and the trees that they
stand for.

Binary operators are told apart by how tight they bind.  Those of one level group to
the left, since only the left operand of an operation may be an operation of the same
level.
-/

namespace Pictogram
namespace Grammar

/-- What an expression may be, the loosest first. -/
inductive Category where
  | expression
  | or
  | and
  | equality
  | relational
  | additive
  | multiplicative
  | unary
  | primary
  deriving DecidableEq, Repr

/-- The operators of a category, and what their right operands are. -/
def Category.level? : Category → Option (List BinaryOperator × Category)
  | .or => some ([.or], .and)
  | .and => some ([.and], .equality)
  | .equality => some ([.equal], .relational)
  | .relational =>
    some ([.lessThan, .lessOrEqual, .greaterThan, .greaterOrEqual], .additive)
  | .additive => some ([.add, .subtract], .multiplicative)
  | .multiplicative => some ([.multiply, .divide, .modulo], .unary)
  | .expression | .unary | .primary => none

/-- The expressions that are single tokens. -/
inductive Value : Token → Expression → Prop where
  | number {token : Token} {text : String} (isNumber : token.kind = .number text) :
    Value token (.literal (.number (Parse.numberValue text)) token.position)
  | string {token : Token} {text : String} (isString : token.kind = .string text) :
    Value token (.literal (.string text) token.position)
  | yes {token : Token} (isTrue : token.kind = .trueLiteral) :
    Value token (.literal (.boolean true) token.position)
  | no {token : Token} (isFalse : token.kind = .falseLiteral) :
    Value token (.literal (.boolean false) token.position)
  | null {token : Token} (isNull : token.kind = .nullLiteral) :
    Value token (.literal .null token.position)
  | name {token : Token} {text : String} (isName : token.kind = .identifier text) :
    Value token (.name ⟨text, token.position⟩)

/-- The tokens are an expression of the category, with this tree. -/
inductive Derives : Category → List Token → Expression → Prop where
  | assign
    {name sign : Token}
    {text : String}
    {tokens : List Token}
    {value : Expression}
    (isName : name.kind = .identifier text)
    (isSign : sign.kind = .assign)
    (assigned : Derives .expression tokens value) :
    Derives .expression (name :: sign :: tokens) (.assign ⟨text, name.position⟩ value)
  | plain {tokens : List Token} {e : Expression} (only : Derives .or tokens e) :
    Derives .expression tokens e
  | operand
    {category tighter : Category}
    {operators : List BinaryOperator}
    {tokens : List Token}
    {e : Expression}
    (level : category.level? = some (operators, tighter))
    (only : Derives tighter tokens e) :
    Derives category tokens e
  | operation
    {category tighter : Category}
    {operators : List BinaryOperator}
    {operator : BinaryOperator}
    {sign : Token}
    {leftTokens rightTokens : List Token}
    {left right : Expression}
    (level : category.level? = some (operators, tighter))
    (isOperator : operator ∈ operators)
    (isSign : sign.kind = operator.token)
    (first : Derives category leftTokens left)
    (second : Derives tighter rightTokens right) :
    Derives category (leftTokens ++ sign :: rightTokens)
      (.binary operator left right sign.position)
  | negate
    {sign : Token}
    {tokens : List Token}
    {e : Expression}
    (isSign : sign.kind = .minus)
    (argument : Derives .unary tokens e) :
    Derives .unary (sign :: tokens) (.negate e sign.position)
  | positive {tokens : List Token} {e : Expression} (only : Derives .primary tokens e) :
    Derives .unary tokens e
  | value {token : Token} {e : Expression} (isValue : Value token e) :
    Derives .primary [token] e
  | group
    {opens closes : Token}
    {tokens : List Token}
    {e : Expression}
    (isOpen : opens.kind = .leftParen)
    (inner : Derives .expression tokens e)
    (isClose : closes.kind = .rightParen) :
    Derives .primary (opens :: (tokens ++ [closes])) e

/-- A single token that has a value is an expression. -/
theorem Derives.ofValue {token : Token} {e : Expression} (isValue : Value token e) :
    Derives .expression [token] e :=
  .plain (.operand rfl (.operand rfl (.operand rfl (.operand rfl (.operand rfl (.operand rfl
    (.positive (.value isValue))))))))

/-- What the tokens of a statement or of a part of one may stand for. -/
inductive Phrase where
  | statement (statement : Statement)
  | block (body : List Statement)
  | clauses (clauses : List Clause)
  | alternate (body : List Statement)
  | statements (statements : List Statement)

/-- The tokens are the phrase. -/
inductive Spells : List Token → Phrase → Prop where
  | print
    {word stop : Token}
    {tokens : List Token}
    {e : Expression}
    (isWord : word.kind = .printWord)
    (argument : Derives .expression tokens e)
    (isStop : stop.kind = .stop) :
    Spells (word :: (tokens ++ [stop])) (.statement (.print e word.position))
  | declare
    {word name stop : Token}
    {text : String}
    (isWord : word.kind = .declareWord)
    (isName : name.kind = .identifier text)
    (isStop : stop.kind = .stop) :
    Spells [word, name, stop] (.statement (.declare ⟨text, name.position⟩ none))
  | declareWith
    {word name sign stop : Token}
    {text : String}
    {tokens : List Token}
    {e : Expression}
    (isWord : word.kind = .declareWord)
    (isName : name.kind = .identifier text)
    (isSign : sign.kind = .assign)
    (init : Derives .expression tokens e)
    (isStop : stop.kind = .stop) :
    Spells (word :: name :: sign :: (tokens ++ [stop]))
      (.statement (.declare ⟨text, name.position⟩ (some e)))
  | conditional
    {word : Token}
    {testTokens bodyTokens clausesTokens alternateTokens : List Token}
    {e : Expression}
    {body alternate : List Statement}
    {elseIfs : List Clause}
    (isWord : word.kind = .ifWord)
    (test : Derives .expression testTokens e)
    (chosen : Spells bodyTokens (.block body))
    (further : Spells clausesTokens (.clauses elseIfs))
    (otherwise : Spells alternateTokens (.alternate alternate)) :
    Spells (word :: (testTokens ++ (bodyTokens ++ (clausesTokens ++ alternateTokens))))
      (.statement (.conditional e body elseIfs alternate))
  | count
    {word name within upTo : Token}
    {text : String}
    {startTokens stopTokens bodyTokens : List Token}
    {start stop : Expression}
    {body : List Statement}
    (isWord : word.kind = .forWord)
    (isName : name.kind = .identifier text)
    (isWithin : within.kind = .inWord)
    (first : Derives .expression startTokens start)
    (isUpTo : upTo.kind = .toWord)
    (last : Derives .expression stopTokens stop)
    (each : Spells bodyTokens (.block body)) :
    Spells (word :: name :: within :: (startTokens ++ upTo :: (stopTokens ++ bodyTokens)))
      (.statement (.count ⟨text, name.position⟩ start stop body))
  | loop
    {word : Token}
    {testTokens bodyTokens : List Token}
    {e : Expression}
    {body : List Statement}
    (isWord : word.kind = .whileWord)
    (test : Derives .expression testTokens e)
    (each : Spells bodyTokens (.block body)) :
    Spells (word :: (testTokens ++ bodyTokens)) (.statement (.loop e body))
  | evaluate
    {stop : Token}
    {tokens : List Token}
    {e : Expression}
    (effect : Derives .expression tokens e)
    (isStop : stop.kind = .stop) :
    Spells (tokens ++ [stop]) (.statement (.evaluate e))
  | block
    {opens closes : Token}
    {tokens : List Token}
    {body : List Statement}
    (isOpen : opens.kind = .blockOpen)
    (inner : Spells tokens (.statements body))
    (isClose : closes.kind = .blockClose) :
    Spells (opens :: (tokens ++ [closes])) (.block body)
  | noClauses : Spells [] (.clauses [])
  | clause
    {word : Token}
    {testTokens bodyTokens restTokens : List Token}
    {e : Expression}
    {body : List Statement}
    {rest : List Clause}
    (isWord : word.kind = .elseIfWord)
    (test : Derives .expression testTokens e)
    (chosen : Spells bodyTokens (.block body))
    (further : Spells restTokens (.clauses rest)) :
    Spells (word :: (testTokens ++ (bodyTokens ++ restTokens))) (.clauses (.mk e body :: rest))
  | noAlternate : Spells [] (.alternate [])
  | alternate
    {word : Token}
    {tokens : List Token}
    {body : List Statement}
    (isWord : word.kind = .elseWord)
    (otherwise : Spells tokens (.block body)) :
    Spells (word :: tokens) (.alternate body)
  | noStatements : Spells [] (.statements [])
  | statements
    {firstTokens restTokens : List Token}
    {first : Statement}
    {rest : List Statement}
    (head : Spells firstTokens (.statement first))
    (tail : Spells restTokens (.statements rest)) :
    Spells (firstTokens ++ restTokens) (.statements (first :: rest))

/-! ## First tokens -/

/-- Whether an expression may begin with a token of this kind. -/
def beginsExpression (kind : Token.Kind) : Prop :=
  kind = .minus ∨ kind = .leftParen ∨ kind.startsLiteral

/-- The token of a value is one that starts a literal. -/
theorem Value.startsLiteral {token : Token} {e : Expression} (isValue : Value token e) :
    token.kind.startsLiteral := by
  cases isValue with
  | number isKind | string isKind | yes isKind | no isKind | null isKind | name isKind =>
      rw [isKind]
      rfl

/-- Every expression begins with a token that an expression may begin with. -/
theorem Derives.begins
    {category : Category}
    {tokens : List Token}
    {e : Expression}
    (derived : Derives category tokens e) :
    ∃ token more, tokens = token :: more ∧ beginsExpression token.kind := by
  induction derived with
  | assign isName => exact ⟨_, _, rfl, .inr (.inr (by rw [isName]; rfl))⟩
  | plain _ inductionHypothesis => exact inductionHypothesis
  | operand _ _ inductionHypothesis => exact inductionHypothesis
  | operation _ _ _ _ _ firstHypothesis =>
      obtain ⟨token, more, rfl, begins⟩ := firstHypothesis
      exact ⟨token, _, rfl, begins⟩
  | negate isSign => exact ⟨_, _, rfl, .inl isSign⟩
  | positive _ inductionHypothesis => exact inductionHypothesis
  | value isValue => exact ⟨_, _, rfl, .inr (.inr isValue.startsLiteral)⟩
  | group isOpen => exact ⟨_, _, rfl, .inr (.inl isOpen)⟩

/-- A primary expression does not begin with a minus. -/
theorem Derives.primary_begins
    {tokens : List Token}
    {e : Expression}
    (derived : Derives .primary tokens e) :
    ∃ token more, tokens = token :: more ∧ token.kind ≠ .minus := by
  cases derived with
  | operand level => cases level
  | operation level => cases level
  | value isValue =>
      refine ⟨_, _, rfl, fun isMinus => ?_⟩
      have starts := isValue.startsLiteral
      rw [isMinus] at starts
      cases starts
  | group isOpen =>
      refine ⟨_, _, rfl, fun isMinus => ?_⟩
      rw [isOpen] at isMinus
      cases isMinus

/-- No statement begins with the word of a further clause, or with the end of a block or of the
input. -/
theorem Spells.statement_begins
    {tokens : List Token}
    {s : Statement}
    (spells : Spells tokens (.statement s)) :
    ∃ token more, tokens = token :: more ∧
      token.kind ∉ [.elseIfWord, .elseWord, .blockClose, .endOfInput] := by
  cases spells with
  | print isWord | declare isWord | declareWith isWord | conditional isWord | count isWord
  | loop isWord =>
      refine ⟨_, _, rfl, ?_⟩
      rw [isWord]
      decide
  | evaluate effect =>
      obtain ⟨token, more, rfl, begins⟩ := effect.begins
      refine ⟨token, _, rfl, ?_⟩
      rcases begins with isMinus | isParen | starts
      · rw [isMinus]
        decide
      · rw [isParen]
        decide
      · intro present
        simp only [List.mem_cons, List.not_mem_nil, or_false] at present
        rcases present with same | same | same | same <;> rw [same] at starts <;> cases starts

/-- An expression takes at least one token. -/
theorem Derives.shorter
    {category : Category}
    {tokens used rest : List Token}
    {e : Expression}
    (derived : Derives category used e)
    (split : tokens = used ++ rest) :
    rest.length < tokens.length := by
  obtain ⟨token, more, rfl, -⟩ := derived.begins
  rw [split]
  simp only [List.cons_append, List.length_cons, List.length_append]
  omega

/-- A statement takes at least one token. -/
theorem Spells.shorter
    {tokens used rest : List Token}
    {s : Statement}
    (spells : Spells used (.statement s))
    (split : tokens = used ++ rest) :
    rest.length < tokens.length := by
  obtain ⟨token, more, rfl, -⟩ := spells.statement_begins
  rw [split]
  simp only [List.cons_append, List.length_cons, List.length_append]
  omega

/-! ## The end of the input -/

/-- There is no end of the input among the tokens. -/
def Endless (tokens : List Token) : Prop :=
  ∀ token ∈ tokens, token.kind ≠ .endOfInput

@[simp]
theorem endless_nil : Endless [] := nofun

@[simp]
theorem endless_cons {token : Token} {rest : List Token} :
    Endless (token :: rest) ↔ token.kind ≠ .endOfInput ∧ Endless rest :=
  List.forall_mem_cons

@[simp]
theorem endless_append {tokens rest : List Token} :
    Endless (tokens ++ rest) ↔ Endless tokens ∧ Endless rest :=
  List.forall_mem_append

/-- Tokens without an end of the input lie before any end of the input. -/
theorem Endless.split
    {used rest before after : List Token}
    {ending : Token}
    (endless : Endless used)
    (isEnd : ending.kind = .endOfInput)
    (same : before ++ ending :: after = used ++ rest) :
    ∃ inner, before = used ++ inner ∧ rest = inner ++ ending :: after := by
  rcases List.append_eq_append_iff.mp same with ⟨inner, isUsed, isRest⟩ | ⟨inner, isBefore, isRest⟩
  · cases inner with
    | nil =>
        rw [List.append_nil] at isUsed
        exact ⟨[], by rw [isUsed, List.append_nil], isRest.symm⟩
    | cons token inner =>
        obtain ⟨rfl, -⟩ := List.cons.inj isRest
        have present : ending ∈ used := by simp [isUsed]
        exact absurd isEnd (endless ending present)
  · exact ⟨inner, isBefore, isRest⟩

/-- There is no end of the input within an expression. -/
theorem Derives.endless
    {category : Category}
    {tokens : List Token}
    {e : Expression}
    (derived : Derives category tokens e) :
    Endless tokens := by
  induction derived with
  | assign isName isSign _ assigned => simp [isName, isSign, assigned]
  | plain _ only => exact only
  | operand _ _ only => exact only
  | @operation _ _ _ operator _ _ _ _ _ _ _ isSign _ _ first second =>
      have signNot : operator.token ≠ .endOfInput := by cases operator <;> decide
      simp [isSign, signNot, first, second]
  | negate isSign _ argument => simp [isSign, argument]
  | positive _ only => exact only
  | @value token _ isValue =>
      have notEnd : token.kind ≠ .endOfInput := by
        intro isEnd
        have starts := isValue.startsLiteral
        rw [isEnd] at starts
        cases starts
      simp [notEnd]
  | group isOpen _ isClose inner => simp [isOpen, isClose, inner]

/-- A sentence of the grammar has no end of the input in it. -/
theorem Spells.endless {tokens : List Token} {phrase : Phrase} (spells : Spells tokens phrase) :
    Endless tokens := by
  induction spells with
  | print isWord argument isStop => simp [isWord, argument.endless, isStop]
  | declare isWord isName isStop => simp [isWord, isName, isStop]
  | declareWith isWord isName isSign init isStop =>
      simp [isWord, isName, isSign, init.endless, isStop]
  | conditional isWord test _ _ _ body clauses alternate =>
      simp [isWord, test.endless, body, clauses, alternate]
  | count isWord isName isWithin first isUpTo last _ body =>
      simp [isWord, isName, isWithin, first.endless, isUpTo, last.endless, body]
  | loop isWord test _ body => simp [isWord, test.endless, body]
  | evaluate effect isStop => simp [effect.endless, isStop]
  | block isOpen _ isClose inner => simp [isOpen, inner, isClose]
  | noClauses => exact endless_nil
  | clause isWord test _ _ body rest => simp [isWord, test.endless, body, rest]
  | noAlternate => exact endless_nil
  | alternate isWord _ body => simp [isWord, body]
  | noStatements => exact endless_nil
  | statements _ _ first rest => simp [first, rest]

end Grammar
end Pictogram
