import Pictogram.Proofs.Parse.Reader

/-!
# The parser follows the grammar of expressions

A parse takes an expression off the front of the tokens, and gives its tree.  Where it fails, the
tokens before are the beginning of an expression.
-/

namespace Pictogram
namespace Parse

open Grammar (Category Value Derives Phrase Spells)

section Expressions

variable {construct : Construct} {level : Level} {tighter : List Level}

/-- The end of the input is no operator. -/
theorem operator?_end : level.operator? .endOfInput = none := by
  refine List.find?_eq_none.mpr fun operator _ => ?_
  cases operator <;> decide

/-- The tokens that a parse has started from make no difference to the operations. -/
theorem operations_congr
    {tokens others rest : List Token}
    {shorter : rest.length < tokens.length}
    {shorter' : rest.length < others.length}
    (left : Expression) :
    bare (operations construct level tighter (⟨left, rest, shorter⟩ : Progress _ tokens)) =
      bare (operations construct level tighter (⟨left, rest, shorter'⟩ : Progress _ others)) := by
  cases found : level.operator? (current rest).kind with
  | none =>
      rw [operations_stop found, operations_stop found]
      rfl
  | some operator =>
      match rest with
      | [] =>
          rw [current, Token.endOfInput, operator?_end] at found
          cases found
      | token :: more =>
          have found : level.operator? token.kind = some operator := found
          rw [operations, operations]
          simp only [found]
          cases binary construct tighter more with
          | error failure => rfl
          | ok right => exact operations_congr _
termination_by rest.length
decreasing_by exact Nat.lt_succ_of_lt right.shorter

theorem resume_operations
    {tokens : List Token}
    (left : Progress Expression tokens) :
    bare (operations construct level tighter left) =
      resume (operations construct level tighter) left.value left.rest :=
  operations_congr left.value

/-- The operations of a level are read behind an operand of the tighter levels. -/
theorem reader_binary :
    reader (binary construct (level :: tighter)) = (do
      let first ← reader (binary construct tighter)
      resume (operations construct level tighter) first) := by
  funext tokens
  show bare (binary construct (level :: tighter) tokens) = _
  rw [binary]
  exact bare_bind rfl resume_operations

theorem resume_operations_stop
    {left : Expression}
    {rest : List Token}
    (stops : level.operator? (current rest).kind = none) :
    resume (operations construct level tighter) left rest = .ok (left, rest) := by
  show bare (operations construct level tighter (.take left (current rest) rest)) = _
  rw [operations_stop stops]
  rfl

theorem resume_operations_cons
    {left : Expression}
    {token : Token}
    {operator : BinaryOperator}
    (found : level.operator? token.kind = some operator)
    (rest : List Token) :
    resume (operations construct level tighter) left (token :: rest) = (do
      let right ← reader (binary construct tighter)
      resume (operations construct level tighter) (.binary operator left right token.position) :
        Reader Expression) rest := by
  show bare (operations construct level tighter (.take left token (token :: rest))) = _
  rw [operations]
  simp only [Progress.take, found]
  exact bare_bind rfl fun right => resume_operations _

theorem reader_unary_cons (span : Span) (position : Position) (rest : List Token) :
    reader (unary construct) (⟨.minus, span, position⟩ :: rest) = (do
      let argument ← reader (unary construct)
      return .negate argument position : Reader Expression) rest := by
  show bare (unary construct _) = _
  rw [unary]
  exact bare_bind rfl fun _ => rfl

theorem reader_primary_cons (span : Span) (position : Position) (rest : List Token) :
    reader (primary construct) (⟨.leftParen, span, position⟩ :: rest) = (do
      let inner ← reader (expression construct)
      let _ ← reader (expect construct .rightParen fun _ => .unclosedParenthesis)
      return inner : Reader Expression) rest := by
  show bare (primary construct _) = _
  rw [primary]
  exact bare_bind rfl fun _ => bare_bind rfl fun _ => rfl

theorem reader_expression_cons
    (name : String)
    (span span' : Span)
    (position position' : Position)
    (rest : List Token) :
    reader (expression construct)
        (⟨.identifier name, span, position⟩ :: ⟨.assign, span', position'⟩ :: rest) = (do
      let value ← reader (expression construct)
      return .assign ⟨name, position⟩ value : Reader Expression) rest := by
  show bare (expression construct _) = _
  rw [expression]
  exact bare_bind rfl fun _ => rfl

/-- Whether a list begins with a name and the sign of an assignment. -/
def BeginsAssignment (tokens : List Token) : Prop :=
  (∃ text, (current tokens).kind = .identifier text) ∧ (current tokens.tail).kind = .assign

/-- What does not begin as an assignment is read from the loosest level. -/
theorem expression_eq_of_not_begins
    {tokens : List Token}
    (plain : ¬BeginsAssignment tokens) :
    reader (expression construct) tokens = reader (binary construct ladder) tokens := by
  refine congrArg bare (expression_eq_binary ?_)
  rintro name sign more text rfl isName isSign
  exact plain ⟨⟨text, isName⟩, isSign⟩

/-- Whether an assignment begins is settled once a token has been taken. -/
theorem BeginsAssignment.of_current_eq
    {token : Token}
    {used others rest : List Token}
    (begins : BeginsAssignment (token :: used ++ others))
    (same : current others = current rest) :
    BeginsAssignment (token :: used ++ rest) :=
  ⟨begins.1, current_append same used ▸ begins.2⟩

/-- A parse does not fail at a name that it begins with. -/
theorem binary_ne_error_of_name
    {token : Token}
    {text : String}
    {failure : Failure}
    (isName : token.kind = .identifier text) :
    reader (binary construct ladder) [token] ≠ .error failure := by
  have ends : Ends [] := ⟨⟨by decide, by decide⟩, by decide⟩
  obtain ⟨shorter, read⟩ := expression_reads (Derives.ofValue (.name isName)) ends
  have plain : ¬BeginsAssignment [token] := fun begins => nomatch begins.2
  rw [← expression_eq_of_not_begins plain]
  show bare (expression construct ([token] ++ [])) ≠ _
  rw [read]
  nofun

/-- A plain expression is one that no assignment begins with. -/
theorem Follows.expression
    {tokens : List Token}
    (follows : Follows (Derives .or) (reader (binary construct ladder)) tokens)
    (plain : ¬BeginsAssignment tokens) :
    Follows (Derives .expression) (reader (expression construct)) tokens := by
  cases follows with
  | takes used rest split taken again =>
      obtain ⟨token, more, rfl, -⟩ := taken.begins
      refine .takes (token :: more) rest split (.plain taken) fun others same => ?_
      have stillPlain : ¬BeginsAssignment (token :: more ++ others) := fun begins =>
        plain (split ▸ begins.of_current_eq same)
      rw [expression_eq_of_not_begins stillPlain, again others same]
  | fails used rest more split begun isHere again =>
      refine .fails used rest more split (.plain begun) isHere fun others same => ?_
      have stillPlain : ¬BeginsAssignment (used ++ others) := by
        intro begins
        cases used with
        | nil =>
            -- A parse that has taken nothing does not fail at a name.
            obtain ⟨text, isName⟩ := begins.1
            exact binary_ne_error_of_name (same ▸ isName) (again [current rest] rfl)
        | cons token used => exact plain (split ▸ begins.of_current_eq same)
      rw [expression_eq_of_not_begins stillPlain, again others same]

/-- A value of a single token is read, and refused if another value follows. -/
theorem reader_primary_atom
    {token : Token}
    {e : Expression}
    (isAtom : atom? token.kind token.position = some e)
    (rest : List Token) :
    reader (primary construct) (token :: rest) =
      if (current rest).kind.startsLiteral then
        fail construct (.strayLiteral (current rest).kind) rest
      else .ok (e, rest) := by
  have notOpen : token.kind ≠ .leftParen := by
    intro isOpen
    rw [isOpen] at isAtom
    cases isAtom
  show bare (primary construct (token :: rest)) = _
  rw [primary_eq_single notOpen, single, isAtom]
  dsimp only
  split
  · rfl
  · rfl

/-- Where no value and no parenthesis stands, a value is missing. -/
theorem reader_primary_fail
    {tokens : List Token}
    (notOpen : (current tokens).kind ≠ .leftParen)
    (noAtom : atom? (current tokens).kind (current tokens).position = none) :
    reader (primary construct) tokens =
      fail construct (.missingValue (current tokens).kind) tokens := by
  show bare (primary construct tokens) = _
  cases tokens with
  | nil =>
      rw [primary]
      rfl
  | cons token rest =>
      have notParen : token.kind ≠ .leftParen := notOpen
      have notValue : atom? token.kind token.position = none := noAtom
      rw [primary_eq_single notParen, single, notValue]
      rfl

/-- A single value, which may not be followed by another. -/
theorem primary_follows_of_not_open
    {tokens : List Token}
    (notOpen : (current tokens).kind ≠ .leftParen) :
    Follows (Derives .primary) (reader (primary construct)) tokens := by
  cases atom : atom? (current tokens).kind (current tokens).position with
  | none =>
      refine .of_fail construct (.missingValue (current tokens).kind)
        (.value (.yes (rfl : (sample .trueLiteral).kind = .trueLiteral))) fun others same => ?_
      rw [← same] at notOpen atom ⊢
      exact reader_primary_fail notOpen atom
  | some e =>
      cases tokens with
      | nil => cases atom
      | cons token rest =>
          have isAtom : atom? token.kind token.position = some e := atom
          have derived : Derives .primary [token] e := .value (value_of_atom? isAtom)
          by_cases stray : (current rest).kind.startsLiteral
          · -- The value has been taken when the next one is found to be stray.
            have isHere : (⟨(current rest).position, construct,
                .strayLiteral (current rest).kind⟩ : Error).position =
                  (current rest).position := rfl
            refine .fails [token] rest [] rfl derived isHere fun others same => ?_
            rw [List.singleton_append, reader_primary_atom isAtom, same, if_pos stray, fail, same]
          · refine .takes [token] rest rfl derived fun others same => ?_
            rw [List.singleton_append, reader_primary_atom isAtom, same, if_neg stray]

end Expressions

mutual

/-- An expression is read as the grammar says, and refused where no expression can go on. -/
theorem expression_follows {construct : Construct} (tokens : List Token) :
    Follows (Derives .expression) (reader (expression construct)) tokens := by
  by_cases begins : BeginsAssignment tokens
  · obtain ⟨⟨text, isName⟩, isSign⟩ := begins
    obtain ⟨span, position, rest, rfl⟩ := exists_cons_of_kind isName nofun
    obtain ⟨span', position', rest, rfl⟩ := exists_cons_of_kind isSign nofun
    refine .cons (fun _ => rfl) ?_
    refine .cons (reader_expression_cons text span span' position position') ?_
    exact (expression_follows rest).map fun used value derived => .assign rfl rfl derived
  · exact (binary_follows climbs_ladder tokens).expression begins
termination_by (tokens.length, ladder.length + 3)

/-- The operations from a level on are read as the grammar says. -/
theorem binary_follows {construct : Construct} {category : Category} {levels : List Level}
    (climbs : Climbs category levels) (tokens : List Token) :
    Follows (Derives category) (reader (binary construct levels)) tokens := by
  match levels, climbs with
  | [], .unary =>
      have same : reader (binary construct []) = reader (unary construct) := by
        funext tokens
        show bare (binary construct [] tokens) = _
        rw [binary]
        rfl
      rw [same]
      exact unary_follows tokens
  | level :: tighter, .level isLevel above =>
      rw [reader_binary]
      refine .bind (binary_follows above tokens) (fun used e derived => ?_)
        fun used e rest split derived => ?_
      · exact ⟨[], e, .operand isLevel (used.append_nil.symm ▸ derived)⟩
      · have fewer := derived.shorter split
        refine (operations_follows isLevel above e rest).mono fun more _ completes => ?_
        exact completes used (.operand isLevel derived)
termination_by (tokens.length, levels.length + 2)

/-- The operations that follow complete whatever their first operand begins. -/
theorem operations_follows {construct : Construct} {category tighter : Category} {level : Level}
    {levels : List Level}
    (isLevel : category.level? = some (level, tighter))
    (above : Climbs tighter levels)
    (left : Expression)
    (tokens : List Token) :
    Follows (fun used e => ∀ leftTokens, Derives category leftTokens left →
        Derives category (leftTokens ++ used) e)
      (resume (operations construct level levels) left) tokens := by
  cases found : level.operator? (current tokens).kind with
  | none =>
      refine .of_current (fun others same => resume_operations_stop (same ▸ found)) (.pure ?_)
      intro leftTokens derived
      rwa [List.append_nil]
  | some operator =>
      match tokens with
      | [] =>
          rw [current, Token.endOfInput, operator?_end] at found
          cases found
      | token :: rest =>
          have isOperator : operator ∈ level := List.mem_of_find?_eq_some found
          have isSign : token.kind = operator.token := by
            simpa [current, eq_comm] using List.find?_some found
          refine .cons (resume_operations_cons found) ?_
          refine .bind (binary_follows above rest) (fun used right derived => ?_)
            fun used right rest split derived => ?_
          · refine ⟨[], .binary operator left right token.position,
              fun leftTokens leftDerived => ?_⟩
            rw [List.append_nil]
            exact .operation isLevel isOperator isSign leftDerived derived
          · have fewer := derived.shorter split
            refine (operations_follows isLevel above _ rest).mono fun more e completes => ?_
            intro leftTokens leftDerived
            have whole := completes (leftTokens ++ token :: used)
              (.operation isLevel isOperator isSign leftDerived derived)
            simpa using whole
termination_by (tokens.length, levels.length + 3)

theorem unary_follows {construct : Construct} (tokens : List Token) :
    Follows (Derives .unary) (reader (unary construct)) tokens := by
  by_cases isMinus : (current tokens).kind = .minus
  · obtain ⟨span, position, rest, rfl⟩ := exists_cons_of_kind isMinus nofun
    refine .cons (reader_unary_cons span position) ?_
    exact (unary_follows rest).map fun used e derived => .negate rfl derived
  · have positive : Follows (Derives .unary) (reader (primary construct)) tokens :=
      (primary_follows tokens).mono fun _ _ => .positive
    refine .of_current (fun others same => ?_) positive
    exact congrArg bare (unary_eq_primary (same ▸ isMinus))
termination_by (tokens.length, 1)

theorem primary_follows {construct : Construct} (tokens : List Token) :
    Follows (Derives .primary) (reader (primary construct)) tokens := by
  by_cases isOpen : (current tokens).kind = .leftParen
  · obtain ⟨span, position, rest, rfl⟩ := exists_cons_of_kind isOpen nofun
    refine .cons (reader_primary_cons span position) ?_
    refine .bind (expression_follows rest) (fun used e derived => ?_)
      fun used e rest _ derived => ?_
    · exact ⟨[sample .rightParen], e, .group rfl derived rfl⟩
    · refine (expect_follows (by decide)).map ?_
      rintro _ _ ⟨closes, rfl, isClose⟩
      exact .group rfl derived isClose
  · exact primary_follows_of_not_open isOpen
termination_by (tokens.length, 0)

end

end Parse
end Pictogram
