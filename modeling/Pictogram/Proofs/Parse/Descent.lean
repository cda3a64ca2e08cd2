import Pictogram.Proofs.Parse.Follow.Statement

/-!
# How deep the parser descends

The parser is defined together with a measure that decreases at every call.  Here its routines
are written without one, as plain calls of each other up to some depth, to which the rounds of
a loop count as well.  At a depth that is linear in the number of tokens they come to their
end, with the outcome that the parser has.  On the way they take tokens off the front, none of
them an end of the input.
-/

namespace Pictogram
namespace Parse

open Grammar (Derives Endless)

/-! ## The routines -/

/-- A routine of the parser, with its arguments.  A loop has what it has gathered so far. -/
inductive Routine : Type → Type where
  | expression (construct : Construct) : Routine Expression
  | binary (construct : Construct) (levels : List Level) : Routine Expression
  | operations (construct : Construct) (level : Level) (tighter : List Level)
    (left : Expression) : Routine Expression
  | unary (construct : Construct) : Routine Expression
  | primary (construct : Construct) : Routine Expression
  | printStatement (word : Token) : Routine Statement
  | declaration (word : Token) : Routine Statement
  | expressionStatement : Routine Statement
  | statement : Routine Statement
  | elseIfs (done : Array Clause) : Routine (Array Clause)
  | elseBody (done : Array Clause) : Routine (List Statement)
  | block (construct : Construct) (after : Part) : Routine (List Statement)
  | statements (construct : Construct) (done : Array Statement) : Routine (List Statement)
  | program (done : Array Statement) : Routine Program

/-- A part of a parse that may come to no end, and then has no outcome. -/
abbrev Limited := StateT (List Token) (ExceptT Failure Option)

/-- A reader comes to an end. -/
def Limited.ofReader {α : Type} (read : Reader α) : Limited α := fun tokens => some (read tokens)

/-- A declaration from behind its name, by a part for the initial value. -/
def declaredBy (initial : Limited Expression) (id : Identifier) : Limited Statement := do
  if (current (← get)).kind = .assign then
    let _ ← .ofReader (reader (expect .declaration .assign (.missing .assign .variableName)))
    let init ← initial
    let _ ← .ofReader (reader (expect .declaration .stop (.missing .stop .initializer)))
    return .declare id (some init)
  else
    let _ ← .ofReader (reader (expect .declaration .stop (.missing .stop .variableName)))
    return .declare id none

namespace Routine

variable {α : Type}

/-- What the parser reads. -/
def read : Routine α → Reader α
  | .expression construct => reader (Parse.expression construct)
  | .binary construct levels => reader (Parse.binary construct levels)
  | .operations construct level tighter left =>
    resume (Parse.operations construct level tighter) left
  | .unary construct => reader (Parse.unary construct)
  | .primary construct => reader (Parse.primary construct)
  | .printStatement word => fun rest => bare (Parse.printStatement word rest)
  | .declaration word => fun rest => bare (Parse.declaration word rest)
  | .expressionStatement => reader Parse.expressionStatement
  | .statement => reader Parse.statement
  | .elseIfs done => resume Parse.elseIfs done
  | .elseBody done => resume Parse.elseBody done
  | .block construct after => reader (Parse.block construct after)
  | .statements construct done => resume (Parse.statements construct) done
  | .program done => Parse.program done

/-- What a routine does up to the calls that it makes. -/
def round (call : {α : Type} → Routine α → Limited α) : {α : Type} → Routine α → Limited α
  | _, .expression construct => do
    let tokens ← get
    match (current tokens).kind, (current tokens.tail).kind with
    | .identifier name, .assign =>
      set tokens.tail.tail
      let value ← call (.expression construct)
      return .assign ⟨name, (current tokens).position⟩ value
    | _, _ => call (.binary construct ladder)
  | _, .binary construct [] => call (.unary construct)
  | _, .binary construct (level :: tighter) => do
    let first ← call (.binary construct tighter)
    call (.operations construct level tighter first)
  | _, .operations construct level tighter left => do
    let tokens ← get
    match level.operator? (current tokens).kind with
    | none => return left
    | some operator =>
      set tokens.tail
      let right ← call (.binary construct tighter)
      call (.operations construct level tighter
        (.binary operator left right (current tokens).position))
  | _, .unary construct => do
    let tokens ← get
    if (current tokens).kind = .minus then
      set tokens.tail
      let argument ← call (.unary construct)
      return .negate argument (current tokens).position
    else call (.primary construct)
  | _, .primary construct => do
    let tokens ← get
    if (current tokens).kind = .leftParen then
      set tokens.tail
      let inner ← call (.expression construct)
      let _ ← .ofReader (reader (expect construct .rightParen fun _ => .unclosedParenthesis))
      return inner
    else .ofReader fun tokens => match tokens with
      | token :: rest => bare (single construct token rest)
      | [] => fail construct (.missingValue (current []).kind) []
  | _, .printStatement word => do
    let value ← call (.expression .printStatement)
    let _ ← .ofReader (reader (expect .printStatement .stop (.missing .stop .printedValue)))
    return .print value word.position
  | _, .declaration _ => do
    let id ← .ofReader (reader (expectName .declaration .declareWord))
    declaredBy (call (.expression .declaration)) id
  | _, .expressionStatement => do
    let value ← call (.expression .expressionStatement)
    let _ ← .ofReader (reader (expect .expressionStatement .stop (.missing .stop .expression)))
    return .evaluate value
  | _, .statement => do
    let tokens ← get
    match (current tokens).kind with
    | .printWord =>
      set tokens.tail
      call (.printStatement (current tokens))
    | .declareWord =>
      set tokens.tail
      call (.declaration (current tokens))
    | .ifWord =>
      set tokens.tail
      let test ← call (.expression .ifStatement)
      let body ← call (.block .ifStatement .condition)
      let clauses ← call (.elseIfs #[])
      let alternate ← call (.elseBody clauses)
      return .conditional test body clauses.toList alternate
    | .forWord =>
      set tokens.tail
      let counter ← .ofReader (reader (expectName .forStatement .forWord))
      let _ ← .ofReader (reader (expect .forStatement .inWord (.missing .inWord .loopVariable)))
      let start ← call (.expression .forStatement)
      let _ ← .ofReader (reader (expect .forStatement .toWord (.missing .toWord .startValue)))
      let stop ← call (.expression .forStatement)
      let body ← call (.block .forStatement .endValue)
      return .count counter start stop body
    | .whileWord =>
      set tokens.tail
      let test ← call (.expression .whileStatement)
      let body ← call (.block .whileStatement .condition)
      return .loop test body
    | _ => call .expressionStatement
  | _, .elseIfs done => do
    let tokens ← get
    if (current tokens).kind = .elseIfWord then
      set tokens.tail
      let test ← call (.expression .ifStatement)
      let body ← call (.block .ifStatement .elseIfCondition)
      call (.elseIfs (done.push (.mk test body)))
    else return done
  | _, .elseBody _ => do
    let tokens ← get
    if (current tokens).kind = .elseWord then
      set tokens.tail
      call (.block .ifStatement .elseWord)
    else return []
  | _, .block construct after => do
    let _ ← .ofReader (reader (expectBlock construct after))
    call (.statements construct #[])
  | _, .statements construct done => do
    let tokens ← get
    match (current tokens).kind with
    | .blockClose =>
      set tokens.tail
      return done.toList
    | .endOfInput => .ofReader (fail construct .unclosedBlock)
    | _ =>
      let next ← call .statement
      call (.statements construct (done.push next))
  | _, .program done => do
    if (current (← get)).kind = .endOfInput then return done.toList
    else
      let next ← call .statement
      call (.program (done.push next))

/-- What comes of a routine if calls and rounds are nested up to a depth only. -/
def run : Nat → {α : Type} → Routine α → Limited α
  | 0, _, _ => fun _ => none
  | depth + 1, _, routine => routine.round (run depth)

/-- How many routines may call each other from this one on before a token is taken. -/
def rank : Routine α → Nat
  | .primary _ | .elseIfs _ | .elseBody _ | .block .. => 0
  | .unary _ => 1
  | .binary _ levels => levels.length + 2
  | .operations _ _ tighter _ => tighter.length + 3
  | .expression _ => 9
  | .printStatement _ | .declaration _ | .expressionStatement => 10
  | .statement => 11
  | .statements .. | .program _ => 12

/-- A bound to the depth of calls and rounds.  The highest rank of the parser is twelve. -/
def depth (routine : Routine α) (tokens : List Token) : Nat := 13 * tokens.length + routine.rank

/-- How many tokens a routine takes at least if it does not fail. -/
def least : Routine α → Nat
  | .operations .. | .elseIfs _ | .elseBody _ | .program _ => 0
  | _ => 1

end Routine

/-! ## Outcomes -/

/-- A parse has taken tokens off the front, at least so many if it has not failed, and none of
them an end of the input. -/
inductive Proceeds {α : Type} (least : Nat) (tokens : List Token) :
    Except Failure (α × List Token) → Prop where
  | takes
    {used rest : List Token}
    {value : α}
    (split : tokens = used ++ rest)
    (endless : Endless used)
    (enough : least ≤ used.length) :
    Proceeds least tokens (.ok (value, rest))
  | fails
    {used : List Token}
    {failure : Failure}
    (split : tokens = used ++ failure.tokens)
    (endless : Endless used) :
    Proceeds least tokens (.error failure)

/-- A limited parse ends as the parser does, which proceeds. -/
structure Finishes
    {α : Type}
    (least : Nat)
    (limited : Limited α)
    (read : Reader α)
    (tokens : List Token) : Prop where
  /-- There is an outcome, and it is that of the parser. -/
  finished : limited tokens = some (read tokens)
  /-- The parser proceeds. -/
  proceeds : Proceeds least tokens (read tokens)

namespace Proceeds

variable {α : Type} {least : Nat} {tokens : List Token}

/-- A failure has taken nothing. -/
theorem fail (construct : Construct) (fault : Fault) :
    Proceeds least tokens (Parse.fail construct fault tokens : Except Failure (α × List Token)) :=
  .fails rfl Grammar.endless_nil

/-- What is taken behind a first part is taken behind its tokens. -/
theorem behind
    {used rest : List Token}
    {further : Nat}
    {outcome : Except Failure (α × List Token)}
    (proceeds : Proceeds further rest outcome)
    (split : tokens = used ++ rest)
    (endless : Endless used)
    (enough : least ≤ used.length) :
    Proceeds least tokens outcome := by
  cases proceeds with
  | @takes usedNext last value splitNext endlessNext _ =>
      have whole : tokens = used ++ usedNext ++ last := by
        rw [split, splitNext, List.append_assoc]
      refine .takes whole (Grammar.endless_append.mpr ⟨endless, endlessNext⟩) ?_
      rw [List.length_append]
      omega
  | @fails usedNext failure splitNext endlessNext =>
      have whole : tokens = used ++ usedNext ++ failure.tokens := by
        rw [split, splitNext, List.append_assoc]
      exact .fails whole (Grammar.endless_append.mpr ⟨endless, endlessNext⟩)

end Proceeds

namespace Finishes

variable {α β : Type} {least : Nat} {tokens : List Token}

protected theorem pure (value : α) : Finishes 0 (pure value) (pure value) tokens where
  finished := rfl
  proceeds := .takes rfl Grammar.endless_nil (Nat.zero_le _)

/-- A reader that proceeds comes to an end as it is. -/
theorem ofReader
    {read : Reader α}
    (proceeds : Proceeds least tokens (read tokens)) :
    Finishes least (.ofReader read) read tokens :=
  ⟨rfl, proceeds⟩

/-- One part after another.  The second starts behind the tokens of the first. -/
protected theorem bind
    {limited : Limited α}
    {read : Reader α}
    {limitedNext : α → Limited β}
    {next : α → Reader β}
    (first : Finishes least limited read tokens)
    (second : ∀ value rest, rest.length + least ≤ tokens.length →
      Finishes 0 (limitedNext value) (next value) rest) :
    Finishes least (limited >>= limitedNext) (read >>= next) tokens := by
  obtain ⟨finished, proceeds⟩ := first
  cases outcome : read tokens with
  | error failure =>
      rw [outcome] at finished proceeds
      have stops : (read >>= next) tokens = .error failure := by
        show read tokens >>= _ = _
        rw [outcome]
        rfl
      refine ⟨?_, ?_⟩
      · show (limited tokens : ExceptT Failure Option _) >>= _ = _
        rw [finished, stops]
        rfl
      · rw [stops]
        cases proceeds with
        | fails split endless => exact .fails split endless
  | ok result =>
      obtain ⟨value, rest⟩ := result
      rw [outcome] at finished proceeds
      have goesOn : (read >>= next) tokens = next value rest := by
        show read tokens >>= _ = _
        rw [outcome]
        rfl
      cases proceeds with
      | @takes used _ _ split endless enough =>
          have shorter : rest.length + least ≤ tokens.length := by
            rw [split, List.length_append]
            omega
          have last := second value rest shorter
          refine ⟨?_, ?_⟩
          · show (limited tokens : ExceptT Failure Option _) >>= _ = _
            rw [finished, goesOn, ← last.finished]
            rfl
          · rw [goesOn]
            exact last.proceeds.behind split endless enough

/-- A parse ends as before if a function is applied to its value. -/
protected theorem map
    {limited : Limited α}
    {read : Reader α}
    (first : Finishes least limited read tokens)
    (f : α → β) :
    Finishes least (limited >>= fun value => Pure.pure (f value))
      (read >>= fun value => Pure.pure (f value)) tokens :=
  first.bind fun value _ _ => .pure (f value)

/-- Tokens are taken before a part. -/
theorem skip
    {limited : Limited α}
    {read readRest : Reader α}
    {used rest : List Token}
    (split : tokens = used ++ rest)
    (endless : Endless used)
    (enough : least ≤ used.length)
    (readSkips : read tokens = readRest rest)
    (inner : Finishes 0 limited readRest rest) :
    Finishes least (set rest >>= fun _ => limited) read tokens := by
  refine ⟨?_, ?_⟩
  · rw [readSkips]
    exact inner.finished
  · rw [readSkips]
    exact inner.proceeds.behind split endless enough

/-- The first token is taken. -/
theorem take
    {limited : Limited α}
    {read readRest : Reader α}
    {kind : Token.Kind}
    {span : Span}
    {position : Position}
    (rest : List Token)
    (notEnd : kind ≠ .endOfInput)
    (readTakes : read (⟨kind, span, position⟩ :: rest) = readRest rest)
    (inner : Finishes 0 limited readRest rest) :
    Finishes 1 (set rest >>= fun _ => limited) read (⟨kind, span, position⟩ :: rest) :=
  have endless : Endless [⟨kind, span, position⟩] := by simpa using notEnd
  .skip rfl endless (Nat.le_refl 1) readTakes inner

/-- A parse that goes on like one that ends comes to an end. -/
theorem congr
    {limited limited' : Limited α}
    {read read' : Reader α}
    (limitedSame : limited tokens = limited' tokens)
    (readSame : read tokens = read' tokens)
    (inner : Finishes least limited' read' tokens) :
    Finishes least limited read tokens :=
  ⟨by rw [limitedSame, readSame, inner.finished], by rw [readSame]; exact inner.proceeds⟩

/-- A part that first looks at the tokens. -/
theorem look
    {limited : List Token → Limited α}
    {read : Reader α}
    (inner : Finishes least (limited tokens) read tokens) :
    Finishes least (get >>= limited) read tokens :=
  ⟨inner.finished, inner.proceeds⟩

/-- Fewer tokens may be asked for. -/
theorem weaken
    {limited : Limited α}
    {read : Reader α}
    (finishes : Finishes least limited read tokens) :
    Finishes 0 limited read tokens := by
  refine ⟨finishes.finished, ?_⟩
  exact finishes.proceeds.behind rfl Grammar.endless_nil (Nat.le_refl 0)

end Finishes

/-- What follows a grammar proceeds if the sentences do. -/
theorem Follows.proceeds
    {α : Type}
    {sentence : List Token → α → Prop}
    {read : Reader α}
    {tokens : List Token}
    {least : Nat}
    (follows : Follows sentence read tokens)
    (sentences : ∀ used value, sentence used value → Endless used ∧ least ≤ used.length) :
    Proceeds least tokens (read tokens) := by
  cases follows with
  | @takes used rest value split taken again =>
      obtain ⟨endless, enough⟩ := sentences used value taken
      rw [split, again rest rfl, ← split]
      exact .takes split endless enough
  | @fails used rest more value error split begun isHere again =>
      obtain ⟨endless, -⟩ := sentences _ value begun
      rw [split, again rest rfl, ← split]
      exact .fails split (Grammar.endless_append.mp endless).1

/-! ## One round -/

section Rounds

variable {construct : Construct} {after : Part} {tokens : List Token}
  {call : {α : Type} → Routine α → Limited α}

/-- An expected token is taken, unless it is the end of the input. -/
theorem expect_finishes
    {kind : Token.Kind}
    {fault : Token.Kind → Fault}
    (notEnd : kind ≠ .endOfInput) :
    Finishes 1 (.ofReader (reader (expect construct kind fault)))
      (reader (expect construct kind fault)) tokens := by
  refine .ofReader ((expect_follows notEnd).proceeds ?_)
  rintro _ _ ⟨token, rfl, rfl⟩
  exact ⟨by simpa using notEnd, Nat.le_refl 1⟩

theorem expectName_finishes {after : Token.Kind} :
    Finishes 1 (.ofReader (reader (expectName construct after)))
      (reader (expectName construct after)) tokens := by
  refine .ofReader (expectName_follows.proceeds ?_)
  rintro _ _ ⟨token, rfl, text, isName, -⟩
  exact ⟨by simp [isName], Nat.le_refl 1⟩

/-- A part with a token behind it. -/
theorem Finishes.closed
    {α β : Type}
    {least : Nat}
    {limited : Limited α}
    {read : Reader α}
    {kind : Token.Kind}
    {fault : Token.Kind → Fault}
    {f : α → β}
    (first : Finishes least limited read tokens)
    (notEnd : kind ≠ .endOfInput) :
    Finishes least
      (do
        let value ← limited
        let _ ← .ofReader (reader (expect construct kind fault))
        return f value)
      (do
        let value ← read
        let _ ← reader (expect construct kind fault)
        return f value) tokens :=
  first.bind fun value _ _ => (expect_finishes notEnd).weaken.map fun _ => f value

/-- Calls come to their end where they are not too deep. -/
def Within (call : {α : Type} → Routine α → Limited α) (bound : Nat) : Prop :=
  ∀ ⦃α : Type⦄ (routine : Routine α) (tokens : List Token), routine.depth tokens < bound →
    Finishes routine.least (call routine) routine.read tokens

/-- Calls that end up to a depth end up to every lower one. -/
theorem Within.mono
    {size bound : Nat}
    (calls : Within call bound)
    (lower : size ≤ bound) :
    Within call size :=
  fun _ routine tokens deeper => calls routine tokens (Nat.lt_of_lt_of_le deeper lower)

/-- On the same tokens a routine of a lower rank may be called. -/
theorem Within.lower
    {α β : Type}
    {routine : Routine α}
    (calls : Within call (routine.depth tokens))
    (other : Routine β)
    (lower : other.rank < routine.rank) :
    Finishes other.least (call other) other.read tokens :=
  calls other tokens (Nat.add_lt_add_left lower _)

/-- Once a token has been taken any routine of the parser may be called. -/
theorem Within.among
    {α : Type}
    {size : Nat}
    {routine : Routine α}
    (calls : Within call (13 * size + 13))
    (low : routine.rank ≤ 12)
    (few : tokens.length ≤ size) :
    Finishes 0 (call routine) routine.read tokens := by
  refine (calls routine tokens ?_).weaken
  unfold Routine.depth
  omega

/-! ### Expressions -/

/-- An expression ends if the calls that it makes do. -/
theorem expression_finishes (calls : Within call ((Routine.expression construct).depth tokens)) :
    Finishes 1 (Routine.round call (.expression construct)) (reader (expression construct))
      tokens := by
  refine .look ?_
  split
  · rename_i name isName isSign
    obtain ⟨span, position, rest, rfl⟩ := exists_cons_of_kind isName (by simp)
    obtain ⟨span', position', rest, rfl⟩ := exists_cons_of_kind isSign (by decide)
    have both : Endless [⟨.identifier name, span, position⟩, ⟨.assign, span', position'⟩] := by simp
    have inner := calls (.expression construct) rest (by
      simp only [Routine.depth, List.length_cons]
      omega)
    exact .skip rfl both (Nat.le_succ 1)
      (reader_expression_cons name span span' position position' rest) (inner.weaken.map _)
  · rename_i plain
    have begins : ¬BeginsAssignment tokens := by
      rintro ⟨⟨text, isName⟩, isSign⟩
      exact plain text isName isSign
    refine .congr rfl (expression_eq_of_not_begins begins) ?_
    exact calls.lower (.binary construct ladder) (by simp [Routine.rank, ladder])

/-- The operations from a level on end if the calls that they make do. -/
theorem binary_finishes
    {levels : List Level}
    (calls : Within call ((Routine.binary construct levels).depth tokens)) :
    Finishes 1 (Routine.round call (.binary construct levels)) (reader (binary construct levels))
      tokens := by
  cases levels with
  | nil =>
      have same : reader (binary construct []) tokens = reader (unary construct) tokens :=
        congrArg bare (by rw [binary])
      exact .congr rfl same (calls.lower (.unary construct) (by simp [Routine.rank]))
  | cons level tighter =>
      have first := calls.lower (.binary construct tighter) (by simp [Routine.rank])
      rw [reader_binary]
      refine first.bind fun left rest shorter => ?_
      apply calls (.operations construct level tighter left) rest
      simp only [Routine.least, Routine.depth, Routine.rank, List.length_cons] at shorter ⊢
      omega

/-- The operations of a level may take nothing, and end if the calls that they make do. -/
theorem operations_finishes
    {level : Level}
    {tighter : List Level}
    {left : Expression}
    (calls : Within call ((Routine.operations construct level tighter left).depth tokens)) :
    Finishes 0 (Routine.round call (.operations construct level tighter left))
      (resume (operations construct level tighter) left) tokens := by
  refine .look ?_
  split
  · rename_i stops
    exact .congr rfl (resume_operations_stop stops) (.pure left)
  · rename_i operator found
    have notEnd : (current tokens).kind ≠ .endOfInput := by
      intro isEnd
      rw [isEnd, operator?_end] at found
      cases found
    cases tokens with
    | nil => exact absurd rfl notEnd
    | cons token rest =>
        have right := calls (.binary construct tighter) rest (by
          simp only [Routine.depth, Routine.rank, List.length_cons]
          omega)
        refine .weaken (.take rest notEnd (resume_operations_cons found rest) ?_)
        refine right.weaken.bind fun value more shorter => ?_
        let joined : Expression := .binary operator left value token.position
        apply calls (.operations construct level tighter joined) more
        simp only [Routine.depth, Routine.rank, List.length_cons]
        omega

theorem unary_finishes (calls : Within call ((Routine.unary construct).depth tokens)) :
    Finishes 1 (Routine.round call (.unary construct)) (reader (unary construct)) tokens := by
  refine .look ?_
  split
  · rename_i isMinus
    obtain ⟨span, position, rest, rfl⟩ := exists_cons_of_kind isMinus (by decide)
    have inner := calls (.unary construct) rest (by simp [Routine.depth])
    exact .take rest (by decide) (reader_unary_cons span position rest) (inner.weaken.map _)
  · rename_i notMinus
    have same : reader (unary construct) tokens = reader (primary construct) tokens :=
      congrArg bare (unary_eq_primary notMinus)
    exact .congr rfl same (calls.lower (.primary construct) (by simp [Routine.rank]))

theorem primary_finishes (calls : Within call ((Routine.primary construct).depth tokens)) :
    Finishes 1 (Routine.round call (.primary construct)) (reader (primary construct)) tokens := by
  refine .look ?_
  split
  · rename_i isOpen
    obtain ⟨span, position, rest, rfl⟩ := exists_cons_of_kind isOpen (by decide)
    have inner : Within call (13 * rest.length + 13) := calls
    refine .take rest (by decide) (reader_primary_cons span position rest) ?_
    exact (inner.among (by simp [Routine.rank]) (Nat.le_refl _)).closed (by decide)
  · rename_i notOpen
    have follows : Follows (Derives .primary) (reader (primary construct)) tokens :=
      primary_follows_of_not_open notOpen
    have proceeds : Proceeds 1 tokens (reader (primary construct) tokens) := by
      refine follows.proceeds fun used value derived => ⟨derived.endless, ?_⟩
      obtain ⟨token, more, rfl, -⟩ := derived.begins
      simp
    refine ⟨congrArg some ?_, proceeds⟩
    show _ = bare (primary construct tokens)
    cases tokens with
    | nil =>
        rw [primary]
        rfl
    | cons token rest =>
        have notParen : token.kind ≠ .leftParen := notOpen
        rw [primary_eq_single notParen]

/-! ### Statements -/

theorem printStatement_finishes
    {word : Token}
    (calls : Within call ((Routine.printStatement word).depth tokens)) :
    Finishes 1 (Routine.round call (.printStatement word)) (Routine.printStatement word).read
      tokens := by
  have value := calls.lower (.expression .printStatement) (by simp [Routine.rank])
  have same := bare_printStatement word tokens
  simp only [stopped, bind_assoc, pure_bind] at same
  exact .congr rfl same (value.closed (by decide))

theorem expressionStatement_finishes
    (calls : Within call (Routine.expressionStatement.depth tokens)) :
    Finishes 1 (Routine.round call .expressionStatement) (reader expressionStatement) tokens := by
  have value := calls.lower (.expression .expressionStatement) (by decide)
  rw [reader_expressionStatement]
  simp only [stopped, bind_assoc, pure_bind]
  exact value.closed (by decide)

/-- The rest of a declaration ends if its value does. -/
theorem declared_finishes
    {initial : Limited Expression}
    (id : Identifier)
    (value : ∀ rest, rest.length ≤ tokens.length →
      Finishes 0 initial (reader (expression .declaration)) rest) :
    Finishes 0 (declaredBy initial id) (declared id) tokens := by
  refine .look ?_
  split
  · rename_i isSign
    have same : declared id tokens = _ := declared_init isSign
    simp only [stopped, bind_assoc, pure_bind] at same
    refine .congr rfl same ((expect_finishes (by decide)).weaken.bind fun _ rest shorter => ?_)
    exact (value rest shorter).closed (by decide)
  · rename_i noSign
    exact .congr rfl (declared_plain noSign) ((expect_finishes (by decide)).weaken.map _)

theorem declaration_finishes
    {word : Token}
    (calls : Within call ((Routine.declaration word).depth tokens)) :
    Finishes 1 (Routine.round call (.declaration word)) (Routine.declaration word).read
      tokens := by
  refine .congr rfl (bare_declaration word tokens) (expectName_finishes.bind fun id rest shorter =>
    declared_finishes id fun more shorterStill => ?_)
  apply (calls (.expression .declaration) more _).weaken
  simp only [Routine.depth, Routine.rank]
  omega

theorem conditional_finishes
    {span : Span}
    {position : Position}
    {rest : List Token}
    (calls : Within call (13 * rest.length + 13)) :
    Finishes 1 (Routine.round call .statement) (reader statement)
      (⟨.ifWord, span, position⟩ :: rest) := by
  refine .look (.take rest (by decide) (reader_conditional span position rest) ?_)
  refine (calls.among (by decide) (Nat.le_refl _)).bind fun test afterTest _ => ?_
  refine (calls.among (by decide) (by omega)).bind fun body afterBody _ => ?_
  refine (calls.among (by decide) (by omega)).bind fun clauses afterClauses _ => ?_
  exact (calls.among (Nat.zero_le _) (by omega)).map _

theorem count_finishes
    {span : Span}
    {position : Position}
    {rest : List Token}
    (calls : Within call (13 * rest.length + 13)) :
    Finishes 1 (Routine.round call .statement) (reader statement)
      (⟨.forWord, span, position⟩ :: rest) := by
  refine .look (.take rest (by decide) (reader_count span position rest) ?_)
  refine expectName_finishes.weaken.bind fun counter afterName _ => ?_
  refine (expect_finishes (by decide)).weaken.bind fun _ afterIn _ => ?_
  refine (calls.among (by decide) (by omega)).bind fun start afterStart _ => ?_
  refine (expect_finishes (by decide)).weaken.bind fun _ afterTo _ => ?_
  refine (calls.among (by decide) (by omega)).bind fun stop afterStop _ => ?_
  exact (calls.among (by decide) (by omega)).map _

theorem loop_finishes
    {span : Span}
    {position : Position}
    {rest : List Token}
    (calls : Within call (13 * rest.length + 13)) :
    Finishes 1 (Routine.round call .statement) (reader statement)
      (⟨.whileWord, span, position⟩ :: rest) := by
  refine .look (.take rest (by decide) (reader_loop span position rest) ?_)
  refine (calls.among (by decide) (Nat.le_refl _)).bind fun test afterTest shorter => ?_
  exact (calls.among (by decide) shorter).map _

/-- A statement ends if the calls that it makes do. -/
theorem statement_finishes (calls : Within call (Routine.statement.depth tokens)) :
    Finishes 1 (Routine.round call .statement) (reader statement) tokens := by
  by_cases word : (current tokens).kind ∈ [.printWord, .declareWord, .ifWord, .forWord, .whileWord]
  · have inner {token : Token} {rest : List Token} (split : tokens = token :: rest) :
        Within call (13 * rest.length + 13) := by
      refine calls.mono ?_
      simp only [split, Routine.depth, List.length_cons]
      omega
    simp only [List.mem_cons, List.not_mem_nil, or_false] at word
    rcases word with kind | kind | kind | kind | kind <;>
      obtain ⟨span, position, rest, rfl⟩ := exists_cons_of_kind kind (by decide)
    · have same : reader statement (⟨.printWord, span, position⟩ :: rest) =
          (Routine.printStatement ⟨.printWord, span, position⟩).read rest := by
        show bare (statement _) = bare _
        rw [statement]
      refine .look (.take rest (by decide) same ?_)
      exact (inner rfl).among (by simp [Routine.rank]) (Nat.le_refl _)
    · have same : reader statement (⟨.declareWord, span, position⟩ :: rest) =
          (Routine.declaration ⟨.declareWord, span, position⟩).read rest := by
        show bare (statement _) = bare _
        rw [statement]
      refine .look (.take rest (by decide) same ?_)
      exact (inner rfl).among (by simp [Routine.rank]) (Nat.le_refl _)
    · exact conditional_finishes (inner rfl)
    · exact count_finishes (inner rfl)
    · exact loop_finishes (inner rfl)
  · have same : reader statement tokens = reader expressionStatement tokens :=
      congrArg bare (statement_eq_of_no_word word)
    have value := calls.lower .expressionStatement (by decide)
    refine .look ?_
    split
    iterate 5
      · rename_i isWord
        exact absurd (by simp [isWord]) word
    exact .congr rfl same value

/-- Further clauses may take nothing, and end if the calls that they make do. -/
theorem elseIfs_finishes
    {done : Array Clause}
    (calls : Within call ((Routine.elseIfs done).depth tokens)) :
    Finishes 0 (Routine.round call (.elseIfs done)) (resume elseIfs done) tokens := by
  refine .look ?_
  split
  · rename_i isWord
    obtain ⟨span, position, rest, rfl⟩ := exists_cons_of_kind isWord (by decide)
    have inner : Within call (13 * rest.length + 13) := calls
    refine .weaken (.take rest (by decide) (resume_elseIfs_cons done span position rest) ?_)
    refine (inner.among (by decide) (Nat.le_refl _)).bind fun test afterTest _ => ?_
    refine (inner.among (by decide) (by omega)).bind fun body afterBody _ => ?_
    exact inner.among (Nat.zero_le _) (by omega)
  · rename_i noMore
    exact .congr rfl (resume_elseIfs_stop noMore) (.pure done)

theorem elseBody_finishes
    {done : Array Clause}
    (calls : Within call ((Routine.elseBody done).depth tokens)) :
    Finishes 0 (Routine.round call (.elseBody done)) (resume elseBody done) tokens := by
  refine .look ?_
  split
  · rename_i isWord
    obtain ⟨span, position, rest, rfl⟩ := exists_cons_of_kind isWord (by decide)
    have inner : Within call (13 * rest.length + 13) := calls
    refine .weaken (.take rest (by decide) (resume_elseBody_cons done span position rest) ?_)
    exact inner.among (by decide) (Nat.le_refl _)
  · rename_i noMore
    exact .congr rfl (resume_elseBody_stop noMore) (.pure [])

/-- A block ends if the calls that it makes do. -/
theorem block_finishes (calls : Within call ((Routine.block construct after).depth tokens)) :
    Finishes 1 (Routine.round call (.block construct after)) (reader (block construct after))
      tokens := by
  rw [reader_block]
  refine (expect_finishes (by decide)).bind fun _ rest shorter => ?_
  apply (calls (.statements construct #[]) rest _).weaken
  simp only [Routine.depth, Routine.rank]
  omega

/-- The statements of a block end if the calls that they make do, and take the closing token. -/
theorem statements_finishes
    {done : Array Statement}
    (calls : Within call ((Routine.statements construct done).depth tokens)) :
    Finishes 1 (Routine.round call (.statements construct done))
      (resume (statements construct) done) tokens := by
  refine .look ?_
  split
  · rename_i isClose
    obtain ⟨span, position, rest, rfl⟩ := exists_cons_of_kind isClose (by decide)
    have closes : resume (statements construct) done (⟨.blockClose, span, position⟩ :: rest) =
        (pure done.toList : Reader (List Statement)) rest := bare_statements_close rfl
    exact .take rest (by decide) closes (.pure done.toList)
  · rename_i isEnd
    refine .congr rfl (resume_statements_end isEnd) ?_
    exact .ofReader (.fail construct .unclosedBlock)
  · rename_i notClose notEnd
    have next := calls.lower .statement (by simp [Routine.rank])
    refine .congr rfl (resume_statements_next notClose notEnd) ?_
    refine next.bind fun value rest shorter => ?_
    apply (calls (.statements construct (done.push value)) rest _).weaken
    simp only [Routine.least, Routine.depth, Routine.rank] at shorter ⊢
    omega

/-- A program may take nothing, and ends if the calls that it makes do. -/
theorem program_finishes
    {done : Array Statement}
    (calls : Within call ((Routine.program done).depth tokens)) :
    Finishes 0 (Routine.round call (.program done)) (program done) tokens := by
  refine .look ?_
  split
  · rename_i isEnd
    exact .congr rfl (program_end isEnd) (.pure done.toList)
  · rename_i notEnd
    have next := calls.lower .statement (by simp [Routine.rank])
    refine .congr rfl (program_next notEnd) (next.bind fun value rest shorter => ?_).weaken
    apply calls (.program (done.push value)) rest
    simp only [Routine.least, Routine.depth, Routine.rank] at shorter ⊢
    omega

/-- One round of a routine finishes if its calls do. -/
theorem round_finishes
    {α : Type}
    (routine : Routine α)
    (calls : Within call (routine.depth tokens)) :
    Finishes routine.least (Routine.round call routine) routine.read tokens := by
  cases routine with
  | expression construct => exact expression_finishes calls
  | binary construct levels => exact binary_finishes calls
  | operations construct level tighter left => exact operations_finishes calls
  | unary construct => exact unary_finishes calls
  | primary construct => exact primary_finishes calls
  | printStatement word => exact printStatement_finishes calls
  | declaration word => exact declaration_finishes calls
  | expressionStatement => exact expressionStatement_finishes calls
  | statement => exact statement_finishes calls
  | elseIfs done => exact elseIfs_finishes calls
  | elseBody done => exact elseBody_finishes calls
  | block construct after => exact block_finishes calls
  | statements construct done => exact statements_finishes calls
  | program done => exact program_finishes calls

end Rounds

/-! ## All rounds -/

/-- Up to a depth, calls come to their end. -/
theorem run_within (depth : Nat) : Within (Routine.run depth) depth := by
  induction depth with
  | zero => exact fun _ _ _ lower => absurd lower (Nat.not_lt_zero _)
  | succ depth inductionHypothesis =>
      intro α routine tokens lower
      -- All that a round calls lies less deep than the round itself.
      exact round_finishes routine (inductionHypothesis.mono (Nat.le_of_lt_succ lower))

/-- Every routine of the parser comes to its end, whatever the tokens are, before its calls and
rounds are nested deeper than a bound that is linear in their number.  It never goes back and
never takes an end of the input, and if it reads a statement, a block or an expression then it
takes at least one token. -/
theorem descent_finishes {α : Type} (routine : Routine α) (tokens : List Token) (more : Nat) :
    routine.run (routine.depth tokens + 1 + more) tokens = some (routine.read tokens) ∧
      Proceeds routine.least tokens (routine.read tokens) := by
  have finishes := run_within (routine.depth tokens + 1 + more) routine tokens (by omega)
  exact ⟨finishes.finished, finishes.proceeds⟩

end Parse
end Pictogram
