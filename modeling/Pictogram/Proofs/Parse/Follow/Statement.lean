import Pictogram.Proofs.Parse.Follow.Expression

/-!
# The parser follows the grammar of statements

A parse takes a statement off the front of the tokens, and gives its tree.  Where it fails, the
tokens before are the beginning of a statement.  So it is with blocks and programs.
-/

namespace Pictogram
namespace Parse

open Grammar (Derives Phrase Spells)

/-! ## The routines as readers -/

section Routines

variable {construct : Construct} {after : Part} {tokens rest : List Token}

/-- An expression with the stop behind it. -/
def stopped (construct : Construct) (after : Part) : Reader Expression := do
  let value ← reader (expression construct)
  let _ ← reader (expect construct .stop (.missing .stop after))
  return value

/-- A declaration from behind its name. -/
def declared (id : Identifier) : Reader Statement := do
  if (current (← get)).kind = .assign then
    let _ ← reader (expect .declaration .assign (.missing .assign .variableName))
    let init ← stopped .declaration .initializer
    return .declare id (some init)
  else
    let _ ← reader (expect .declaration .stop (.missing .stop .variableName))
    return .declare id none

/-- A declaration goes on with a value if the sign of an assignment follows. -/
theorem declared_init {id : Identifier} (isSign : (current tokens).kind = .assign) :
    declared id tokens = (do
      let _ ← reader (expect .declaration .assign (.missing .assign .variableName))
      let init ← stopped .declaration .initializer
      return .declare id (some init) : Reader Statement) tokens := by
  show (if _ then _ else _ : Reader Statement) tokens = _
  rw [if_pos isSign]

/-- Otherwise it is at its end. -/
theorem declared_plain {id : Identifier} (noSign : (current tokens).kind ≠ .assign) :
    declared id tokens = (do
      let _ ← reader (expect .declaration .stop (.missing .stop .variableName))
      return .declare id none : Reader Statement) tokens := by
  show (if _ then _ else _ : Reader Statement) tokens = _
  rw [if_neg noSign]

theorem bare_printStatement (word : Token) (rest : List Token) :
    bare (printStatement word rest) = (do
      let value ← stopped .printStatement .printedValue
      return .print value word.position : Reader Statement) rest := by
  simp only [printStatement, expectStop, stopped, bind_assoc, pure_bind]
  exact bare_bind rfl fun _ => bare_bind rfl fun _ => rfl

theorem reader_print (span : Span) (position : Position) (rest : List Token) :
    reader statement (⟨.printWord, span, position⟩ :: rest) = (do
      let value ← stopped .printStatement .printedValue
      return .print value position : Reader Statement) rest := by
  show bare (statement _) = _
  rw [statement]
  exact bare_printStatement _ rest

theorem bare_declaration (word : Token) (rest : List Token) :
    bare (declaration word rest) = (do
      let id ← reader (expectName .declaration .declareWord)
      declared id : Reader Statement) rest := by
  simp only [declaration]
  refine bare_bind rfl fun id => ?_
  show _ = (if _ then _ else _ : Reader Statement) id.rest
  split
  · simp only [expectStop, stopped, bind_assoc, pure_bind]
    exact bare_bind rfl fun _ => bare_bind rfl fun _ => bare_bind rfl fun _ => rfl
  · simp only [expectStop, bind_assoc, pure_bind]
    exact bare_bind rfl fun _ => rfl

theorem reader_declaration (span : Span) (position : Position) (rest : List Token) :
    reader statement (⟨.declareWord, span, position⟩ :: rest) = (do
      let id ← reader (expectName .declaration .declareWord)
      declared id : Reader Statement) rest := by
  show bare (statement _) = _
  rw [statement]
  exact bare_declaration _ rest

theorem reader_expressionStatement :
    reader expressionStatement = (do
      let value ← stopped .expressionStatement .expression
      return .evaluate value : Reader Statement) := by
  funext tokens
  show bare (expressionStatement tokens) = _
  simp only [expressionStatement, expectStop, stopped, bind_assoc, pure_bind]
  exact bare_bind rfl fun _ => bare_bind rfl fun _ => rfl

/-- The tokens that a parse has started from make no difference to the further clauses. -/
theorem elseIfs_congr
    {tokens others rest : List Token}
    {shorter : rest.length < tokens.length}
    {shorter' : rest.length < others.length}
    (done : Array Clause) :
    bare (elseIfs (⟨done, rest, shorter⟩ : Progress _ tokens)) =
      bare (elseIfs (⟨done, rest, shorter'⟩ : Progress _ others)) := by
  by_cases isWord : (current rest).kind = .elseIfWord
  · obtain ⟨span, position, more, rfl⟩ := exists_cons_of_kind isWord nofun
    rw [elseIfs, elseIfs]
    exact bare_bind_congr fun test => bare_bind_congr fun body => elseIfs_congr _
  · rw [elseIfs_stop isWord, elseIfs_stop isWord]
    rfl
termination_by rest.length
decreasing_by
  subst_vars
  exact Nat.lt_succ_of_lt (Nat.lt_trans body.shorter test.shorter)

theorem resume_elseIfs (done : Progress (Array Clause) tokens) :
    bare (elseIfs done) = resume elseIfs done.value done.rest :=
  elseIfs_congr done.value

theorem resume_elseIfs_cons
    (done : Array Clause)
    (span : Span)
    (position : Position)
    (rest : List Token) :
    resume elseIfs done (⟨.elseIfWord, span, position⟩ :: rest) = (do
      let test ← reader (expression .ifStatement)
      let body ← reader (block .ifStatement .elseIfCondition)
      resume elseIfs (done.push (.mk test body)) : Reader (Array Clause)) rest := by
  show bare (elseIfs (.take done _ (⟨.elseIfWord, span, position⟩ :: rest))) = _
  rw [elseIfs]
  exact bare_bind rfl fun _ => bare_bind rfl fun _ => resume_elseIfs _

theorem resume_elseIfs_stop {done : Array Clause} (noMore : (current tokens).kind ≠ .elseIfWord) :
    resume elseIfs done tokens = .ok (done, tokens) :=
  congrArg bare (elseIfs_stop noMore)

theorem resume_elseBody_stop {done : Array Clause} (noMore : (current tokens).kind ≠ .elseWord) :
    resume elseBody done tokens = .ok ([], tokens) :=
  congrArg bare (elseBody_stop noMore)

theorem resume_elseBody_cons
    (done : Array Clause)
    (span : Span)
    (position : Position)
    (rest : List Token) :
    resume elseBody done (⟨.elseWord, span, position⟩ :: rest) =
      reader (block .ifStatement .elseWord) rest := by
  show bare (elseBody (.take done _ (⟨.elseWord, span, position⟩ :: rest))) = _
  rw [elseBody]
  exact bare_map

theorem resume_elseBody (done : Progress (Array Clause) tokens) :
    bare (elseBody done) = resume elseBody done.value done.rest := by
  obtain ⟨done, rest, shorter⟩ := done
  by_cases isWord : (current rest).kind = .elseWord
  · obtain ⟨span, position, more, rfl⟩ := exists_cons_of_kind isWord nofun
    rw [resume_elseBody_cons, elseBody]
    exact bare_map
  · show _ = bare (elseBody (.take done _ rest))
    rw [elseBody_stop isWord, elseBody_stop isWord]
    rfl

/-- A conditional is read clause by clause. -/
theorem reader_conditional (span : Span) (position : Position) (rest : List Token) :
    reader statement (⟨.ifWord, span, position⟩ :: rest) = (do
      let test ← reader (expression .ifStatement)
      let body ← reader (block .ifStatement .condition)
      let clauses ← resume elseIfs #[]
      let alternate ← resume elseBody clauses
      return .conditional test body clauses.toList alternate : Reader Statement) rest := by
  show bare (statement _) = _
  rw [statement]
  refine bare_bind rfl fun _ => bare_bind rfl fun _ => bare_bind (resume_elseIfs _) fun _ => ?_
  exact bare_bind (resume_elseBody _) fun _ => rfl

theorem reader_loop (span : Span) (position : Position) (rest : List Token) :
    reader statement (⟨.whileWord, span, position⟩ :: rest) = (do
      let test ← reader (expression .whileStatement)
      let body ← reader (block .whileStatement .condition)
      return .loop test body : Reader Statement) rest := by
  show bare (statement _) = _
  rw [statement]
  exact bare_bind rfl fun _ => bare_bind rfl fun _ => rfl

theorem reader_count (span : Span) (position : Position) (rest : List Token) :
    reader statement (⟨.forWord, span, position⟩ :: rest) = (do
      let counter ← reader (expectName .forStatement .forWord)
      let _ ← reader (expect .forStatement .inWord (.missing .inWord .loopVariable))
      let start ← reader (expression .forStatement)
      let _ ← reader (expect .forStatement .toWord (.missing .toWord .startValue))
      let stop ← reader (expression .forStatement)
      let body ← reader (block .forStatement .endValue)
      return .count counter start stop body : Reader Statement) rest := by
  show bare (statement _) = _
  rw [statement]
  exact bare_bind rfl fun _ => bare_bind rfl fun _ => bare_bind rfl fun _ =>
    bare_bind rfl fun _ => bare_bind rfl fun _ => bare_bind rfl fun _ => rfl

theorem bare_statements_close
    {done : Array Statement}
    {token : Token}
    {shorter : (token :: rest).length < tokens.length}
    (isClose : token.kind = .blockClose) :
    bare (statements construct (⟨done, token :: rest, shorter⟩ : Progress _ tokens)) =
      .ok (done.toList, rest) := by
  have reads : Reads (statements construct (⟨done, token :: rest, shorter⟩ : Progress _ tokens))
      done.toList rest := statements_close rfl isClose
  obtain ⟨fewer, read⟩ := reads
  rw [read]
  rfl

/-- The tokens that a parse has started from make no difference to the statements of a block. -/
theorem statements_congr
    {tokens others rest : List Token}
    {shorter : rest.length < tokens.length}
    {shorter' : rest.length < others.length}
    (done : Array Statement) :
    bare (statements construct (⟨done, rest, shorter⟩ : Progress _ tokens)) =
      bare (statements construct (⟨done, rest, shorter'⟩ : Progress _ others)) := by
  by_cases isEnd : (current rest).kind = .endOfInput
  · rw [statements_end isEnd, statements_end isEnd]
    rfl
  · match rest with
    | [] => exact absurd rfl isEnd
    | token :: more =>
        by_cases isClose : token.kind = .blockClose
        · rw [bare_statements_close isClose, bare_statements_close isClose]
        · rw [statements_eq rfl isClose isEnd, statements_eq rfl isClose isEnd]
          exact bare_bind_congr fun next => statements_congr _
termination_by rest.length
decreasing_by exact next.shorter

theorem resume_statements (done : Progress (Array Statement) tokens) :
    bare (statements construct done) = resume (statements construct) done.value done.rest :=
  statements_congr done.value

theorem reader_block :
    reader (block construct after) = (do
      let _ ← reader (expect construct .blockOpen fun _ => .missingBlock after)
      resume (statements construct) #[]) := by
  funext tokens
  show bare (block construct after tokens) = _
  rw [block]
  exact bare_bind rfl fun _ => resume_statements _

theorem resume_statements_end
    {done : Array Statement}
    (isEnd : (current tokens).kind = .endOfInput) :
    resume (statements construct) done tokens = fail construct .unclosedBlock tokens :=
  congrArg bare (statements_end isEnd)

theorem resume_statements_next
    {done : Array Statement}
    (notClose : (current tokens).kind ≠ .blockClose)
    (notEnd : (current tokens).kind ≠ .endOfInput) :
    resume (statements construct) done tokens = (do
      let next ← reader statement
      resume (statements construct) (done.push next) : Reader (List Statement)) tokens := by
  cases tokens with
  | nil => exact absurd rfl notEnd
  | cons token rest =>
      show bare (statements construct (.take done _ (token :: rest))) = _
      rw [statements_eq rfl notClose notEnd]
      exact bare_bind rfl fun _ => resume_statements _

/-- A program ends at the end of the input. -/
theorem program_end {done : Array Statement} (isEnd : (current tokens).kind = .endOfInput) :
    program done tokens = .ok (done.toList, tokens) := by
  rw [program, if_pos isEnd]

/-- Anything else in a program is a statement, behind which the program goes on. -/
theorem program_next {done : Array Statement} (notEnd : (current tokens).kind ≠ .endOfInput) :
    program done tokens = (do
      let next ← reader statement
      program (done.push next) : Reader Program) tokens := by
  rw [program, if_neg notEnd]
  show _ = bare (statement tokens) >>= _
  cases statement tokens with
  | error failure => rfl
  | ok next => rfl

end Routines

/-! ## What is read -/

section Sentences

variable {construct : Construct} {after : Part} {tokens : List Token}

/-- A block without statements. -/
def emptyBlock : List Token := [sample .blockOpen, sample .blockClose]

theorem emptyBlock_spells : Spells emptyBlock (.block []) :=
  .block rfl .noStatements rfl

/-- A value in place of an expression that is missing. -/
theorem sampleValue_derives :
    Derives .expression [sample .trueLiteral] (.literal (.boolean true) default) :=
  .ofValue (.yes rfl)

/-- An expression is read with the stop behind it. -/
theorem stopped_follows :
    Follows (fun used e => ∃ inner stop, used = inner ++ [stop] ∧ Derives .expression inner e ∧
      stop.kind = .stop) (stopped construct after) tokens := by
  refine .bind (expression_follows tokens) (fun used e derived => ?_)
    fun used e rest _ derived => ?_
  · exact ⟨[sample .stop], e, used, sample .stop, rfl, derived, rfl⟩
  · refine (expect_follows (by decide)).map ?_
    rintro _ _ ⟨stop, rfl, isStop⟩
    exact ⟨used, stop, rfl, derived, isStop⟩

theorem print_follows {span : Span} {position : Position} (rest : List Token) :
    Follows (fun used s => Spells used (.statement s)) (reader statement)
      (⟨.printWord, span, position⟩ :: rest) := by
  refine .cons (reader_print span position) (stopped_follows.map ?_)
  rintro _ e ⟨inner, stop, rfl, derived, isStop⟩
  exact .print rfl derived isStop

theorem declaration_follows {span : Span} {position : Position} (rest : List Token) :
    Follows (fun used s => Spells used (.statement s)) (reader statement)
      (⟨.declareWord, span, position⟩ :: rest) := by
  refine .cons (reader_declaration span position) (.bind_token expectName_follows ?_ ?_)
  · rintro name _ ⟨text, isName, rfl⟩
    exact ⟨[sample .stop], _, .declare rfl isName rfl⟩
  · rintro name _ rest _ ⟨text, isName, rfl⟩
    by_cases isSign : (current rest).kind = .assign
    · refine .of_current (fun others same => declared_init (same ▸ isSign)) ?_
      refine .bind_token (expect_follows (by decide)) (fun sign _ isSign => ?_)
        fun sign _ rest _ isSign => ?_
      · exact ⟨[sample .trueLiteral, sample .stop], _,
          .declareWith rfl isName isSign sampleValue_derives rfl⟩
      · refine stopped_follows.map ?_
        rintro _ e ⟨inner, stop, rfl, derived, isStop⟩
        exact .declareWith rfl isName isSign derived isStop
    · refine .of_current (fun others same => declared_plain (same ▸ isSign)) ?_
      refine (expect_follows (by decide)).map ?_
      rintro _ _ ⟨stop, rfl, isStop⟩
      exact .declare rfl isName isStop

theorem expressionStatement_follows :
    Follows (fun used s => Spells used (.statement s)) (reader expressionStatement) tokens := by
  rw [reader_expressionStatement]
  refine stopped_follows.map ?_
  rintro _ e ⟨inner, stop, rfl, derived, isStop⟩
  exact .evaluate derived isStop

/-- The blocks of lists up to a size are read. -/
def BlocksFollow (size : Nat) : Prop :=
  ∀ {construct : Construct} {after : Part} (tokens : List Token), tokens.length ≤ size →
    Follows (fun used body => Spells used (.block body)) (reader (block construct after)) tokens

theorem loop_follows
    {span : Span}
    {position : Position}
    {rest : List Token}
    (blocks : BlocksFollow rest.length) :
    Follows (fun used s => Spells used (.statement s)) (reader statement)
      (⟨.whileWord, span, position⟩ :: rest) := by
  refine .cons (reader_loop span position) ?_
  refine .bind (expression_follows rest) (fun testUsed test testDerived => ?_)
    fun testUsed test afterTest testSplit testDerived => ?_
  · exact ⟨emptyBlock, _, .loop rfl testDerived emptyBlock_spells⟩
  · exact (blocks afterTest (length_le_of_split testSplit)).map fun bodyUsed body bodySpells =>
      .loop rfl testDerived bodySpells

theorem count_follows
    {span : Span}
    {position : Position}
    {rest : List Token}
    (blocks : BlocksFollow rest.length) :
    Follows (fun used s => Spells used (.statement s)) (reader statement)
      (⟨.forWord, span, position⟩ :: rest) := by
  -- Behind each part, samples of the parts that are missing fill the statement up.
  refine .cons (reader_count span position) (.bind_token expectName_follows ?_ ?_)
  · rintro name _ ⟨text, isName, rfl⟩
    exact ⟨sample .inWord :: sample .trueLiteral :: sample .toWord :: sample .trueLiteral ::
      emptyBlock, _, .count rfl isName rfl sampleValue_derives rfl sampleValue_derives
        emptyBlock_spells⟩
  rintro name _ afterName nameSplit ⟨text, isName, rfl⟩
  refine .bind_token (expect_follows (by decide)) (fun within _ isWithin => ?_)
    fun within _ afterWithin withinSplit isWithin => ?_
  · exact ⟨sample .trueLiteral :: sample .toWord :: sample .trueLiteral :: emptyBlock, _,
      .count rfl isName isWithin sampleValue_derives rfl sampleValue_derives emptyBlock_spells⟩
  refine .bind (expression_follows afterWithin) (fun startUsed start startDerived => ?_)
    fun startUsed start afterStart startSplit startDerived => ?_
  · exact ⟨sample .toWord :: sample .trueLiteral :: emptyBlock, _,
      .count rfl isName isWithin startDerived rfl sampleValue_derives emptyBlock_spells⟩
  refine .bind_token (expect_follows (by decide)) (fun upTo _ isUpTo => ?_)
    fun upTo _ afterUpTo upToSplit isUpTo => ?_
  · exact ⟨sample .trueLiteral :: emptyBlock, _,
      .count rfl isName isWithin startDerived isUpTo sampleValue_derives emptyBlock_spells⟩
  refine .bind (expression_follows afterUpTo) (fun stopUsed stop stopDerived => ?_)
    fun stopUsed stop afterStop stopSplit stopDerived => ?_
  · exact ⟨emptyBlock, _, .count rfl isName isWithin startDerived isUpTo stopDerived
      emptyBlock_spells⟩
  · have few : afterStop.length ≤ rest.length := calc
      afterStop.length ≤ afterUpTo.length := length_le_of_split stopSplit
      _ ≤ afterStart.length := length_le_of_split (List.singleton_append ▸ upToSplit)
      _ ≤ afterWithin.length := length_le_of_split startSplit
      _ ≤ afterName.length := length_le_of_split (List.singleton_append ▸ withinSplit)
      _ ≤ rest.length := length_le_of_split (List.singleton_append ▸ nameSplit)
    exact (blocks afterStop few).map fun bodyUsed body bodySpells =>
      .count rfl isName isWithin startDerived isUpTo stopDerived bodySpells

/-- The clauses that follow those that are done. -/
theorem elseIfs_follows
    {size : Nat}
    (blocks : BlocksFollow size)
    (done : Array Clause)
    {tokens : List Token}
    (few : tokens.length ≤ size) :
    Follows (fun used clauses => ∃ found, clauses.toList = done.toList ++ found ∧
        Spells used (.clauses found))
      (resume elseIfs done) tokens := by
  by_cases isWord : (current tokens).kind = .elseIfWord
  · obtain ⟨span, position, rest, rfl⟩ := exists_cons_of_kind isWord nofun
    refine .cons (resume_elseIfs_cons done span position) ?_
    refine .bind (expression_follows rest) (fun testUsed test testDerived => ?_)
      fun testUsed test afterTest testSplit testDerived => ?_
    · exact ⟨emptyBlock, done.push (.mk test []), [.mk test []], Array.toList_push,
        .clause rfl testDerived emptyBlock_spells .noClauses⟩
    have restFew : rest.length ≤ size := Nat.le_of_succ_le few
    have testFew : afterTest.length ≤ rest.length := length_le_of_split testSplit
    refine .bind (blocks afterTest (Nat.le_trans testFew restFew)) (fun bodyUsed body bodySpells => ?_)
      fun bodyUsed body afterBody bodySplit bodySpells => ?_
    · exact ⟨[], done.push (.mk test body), [.mk test body], Array.toList_push,
        .clause rfl testDerived bodySpells .noClauses⟩
    · have bodyFew : afterBody.length ≤ rest.length :=
        Nat.le_trans (length_le_of_split bodySplit) testFew
      refine (elseIfs_follows blocks _ (Nat.le_trans bodyFew restFew)).mono ?_
      rintro used clauses ⟨found, isFound, spells⟩
      refine ⟨.mk test body :: found, ?_, .clause rfl testDerived bodySpells spells⟩
      rw [isFound, Array.toList_push, List.append_assoc]
      rfl
  · refine .of_current (fun others same => resume_elseIfs_stop (same ▸ isWord)) (.pure ?_)
    exact ⟨[], done.toList.append_nil.symm, .noClauses⟩
termination_by tokens.length

/-- An alternate is read as the grammar says, if blocks are. -/
theorem elseBody_follows
    {size : Nat}
    (blocks : BlocksFollow size)
    (done : Array Clause)
    (few : tokens.length ≤ size) :
    Follows (fun used body => Spells used (.alternate body)) (resume elseBody done) tokens := by
  by_cases isWord : (current tokens).kind = .elseWord
  · obtain ⟨span, position, rest, rfl⟩ := exists_cons_of_kind isWord nofun
    refine .cons (resume_elseBody_cons done span position) ?_
    exact (blocks rest (Nat.le_of_succ_le few)).mono fun used body spells => .alternate rfl spells
  · exact .of_current (fun others same => resume_elseBody_stop (same ▸ isWord)) (.pure .noAlternate)

theorem conditional_follows
    {span : Span}
    {position : Position}
    {rest : List Token}
    (blocks : BlocksFollow rest.length) :
    Follows (fun used s => Spells used (.statement s)) (reader statement)
      (⟨.ifWord, span, position⟩ :: rest) := by
  refine .cons (reader_conditional span position) ?_
  refine .bind (expression_follows rest) (fun testUsed test testDerived => ?_)
    fun testUsed test afterTest testSplit testDerived => ?_
  · exact ⟨emptyBlock, _,
      .conditional rfl testDerived emptyBlock_spells .noClauses .noAlternate⟩
  have testFew : afterTest.length ≤ rest.length := length_le_of_split testSplit
  refine .bind (blocks afterTest testFew) (fun bodyUsed body bodySpells => ?_)
    fun bodyUsed body afterBody bodySplit bodySpells => ?_
  · exact ⟨[], _, .conditional rfl testDerived bodySpells .noClauses .noAlternate⟩
  have bodyFew : afterBody.length ≤ rest.length :=
    Nat.le_trans (length_le_of_split bodySplit) testFew
  refine .bind (elseIfs_follows blocks #[] bodyFew) ?_ ?_
  · rintro clausesUsed clauses ⟨found, isFound, clausesSpell⟩
    exact ⟨[], _, .conditional rfl testDerived bodySpells clausesSpell .noAlternate⟩
  · rintro clausesUsed clauses afterClauses clausesSplit ⟨found, isFound, clausesSpell⟩
    obtain rfl : clauses.toList = found := isFound
    have clausesFew : afterClauses.length ≤ rest.length :=
      Nat.le_trans (length_le_of_split clausesSplit) bodyFew
    exact (elseBody_follows blocks clauses clausesFew).map fun alternateUsed alternate spells =>
      .conditional rfl testDerived bodySpells clausesSpell spells

end Sentences

mutual

/-- A statement is read as the grammar says, and refused where no statement can go on. -/
theorem statement_follows (tokens : List Token) :
    Follows (fun used s => Spells used (.statement s)) (reader statement) tokens := by
  have blocks (rest : List Token) (shorter : rest.length < tokens.length) :
      BlocksFollow rest.length := fun others few => block_follows others
  by_cases word : (current tokens).kind ∈ [.printWord, .declareWord, .ifWord, .forWord, .whileWord]
  · simp only [List.mem_cons, List.not_mem_nil, or_false] at word
    rcases word with kind | kind | kind | kind | kind <;>
      obtain ⟨span, position, rest, rfl⟩ := exists_cons_of_kind kind nofun
    · exact print_follows rest
    · exact declaration_follows rest
    · exact conditional_follows (blocks rest (Nat.lt_succ_self _))
    · exact count_follows (blocks rest (Nat.lt_succ_self _))
    · exact loop_follows (blocks rest (Nat.lt_succ_self _))
  · refine .of_current (fun others same => ?_) expressionStatement_follows
    exact congrArg bare (statement_eq_of_no_word (same ▸ word))
termination_by (tokens.length, 0)

/-- A block is read as the grammar says, and refused where no block can go on. -/
theorem block_follows {construct : Construct} {after : Part} (tokens : List Token) :
    Follows (fun used body => Spells used (.block body)) (reader (block construct after))
      tokens := by
  rw [reader_block]
  refine .bind_token (expect_follows (by decide)) (fun opens _ isOpen => ?_)
    fun opens _ rest split isOpen => ?_
  · exact ⟨[sample .blockClose], [], .block isOpen .noStatements rfl⟩
  · refine (statements_follows #[] rest).mono ?_
    rintro _ body ⟨inner, closes, found, rfl, isClose, isFound, spells⟩
    obtain rfl : body = found := isFound
    exact .block isOpen spells isClose
termination_by (tokens.length, 0)

/-- The statements of a block that follow those that are done, and its end. -/
theorem statements_follows {construct : Construct} (done : Array Statement) (tokens : List Token) :
    Follows (fun used body => ∃ inner closes found, used = inner ++ [closes] ∧
        closes.kind = .blockClose ∧ body = done.toList ++ found ∧
        Spells inner (.statements found))
      (resume (statements construct) done) tokens := by
  by_cases isEnd : (current tokens).kind = .endOfInput
  · refine .of_fail construct .unclosedBlock ⟨[], sample .blockClose, [], rfl, rfl, rfl,
      .noStatements⟩ fun others same => ?_
    exact resume_statements_end (same ▸ isEnd)
  by_cases isClose : (current tokens).kind = .blockClose
  · obtain ⟨span, position, rest, rfl⟩ := exists_cons_of_kind isClose nofun
    refine .cons (fun others => bare_statements_close rfl) (.pure ?_)
    exact ⟨[], _, [], rfl, rfl, done.toList.append_nil.symm, .noStatements⟩
  · refine .of_current (fun others same =>
      resume_statements_next (same ▸ isClose) (same ▸ isEnd)) ?_
    refine .bind (statement_follows tokens) (fun used s spells => ?_)
      fun used s rest split spells => ?_
    · exact ⟨[sample .blockClose], _, used ++ [], _, [s], by rw [List.append_nil], rfl, rfl,
        .statements spells .noStatements⟩
    · have fewer := spells.shorter split
      refine (statements_follows (done.push s) rest).mono ?_
      rintro _ body ⟨inner, closes, found, rfl, isClose, isFound, innerSpells⟩
      refine ⟨used ++ inner, closes, s :: found, (List.append_assoc ..).symm, isClose, ?_,
        .statements spells innerSpells⟩
      rw [isFound, Array.toList_push, List.append_assoc]
      rfl
termination_by (tokens.length, 1)

end

/-- The statements of a program that follow those that are done. -/
theorem program_follows (done : Array Statement) (tokens : List Token) :
    Follows (fun used found => ∃ more, found = done.toList ++ more ∧
      Spells used (.statements more)) (program done) tokens := by
  by_cases isEnd : (current tokens).kind = .endOfInput
  · refine .of_current (fun others same => program_end (same ▸ isEnd)) (.pure ?_)
    exact ⟨[], done.toList.append_nil.symm, .noStatements⟩
  · refine .of_current (fun others same => program_next (same ▸ isEnd)) ?_
    refine .bind (statement_follows tokens) (fun used s spells => ?_)
      fun used s rest split spells => ?_
    · exact ⟨[], _, [s], rfl, .statements spells .noStatements⟩
    · have fewer := spells.shorter split
      refine (program_follows (done.push s) rest).mono ?_
      rintro inner found ⟨more, isFound, innerSpells⟩
      refine ⟨s :: more, ?_, .statements spells innerSpells⟩
      rw [isFound, Array.toList_push, List.append_assoc]
      rfl
termination_by tokens.length

end Parse
end Pictogram
