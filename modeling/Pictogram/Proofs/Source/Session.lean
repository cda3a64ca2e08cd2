import Pictogram.Session
import Pictogram.Proofs.Parse.Joining
import Pictogram.Proofs.Source.Relabel

/-!
# Sessions as single runs

Running one source after another is the same as running both, one below the other.
-/

namespace Pictogram

namespace Evaluate

/-- Statements in a row run as the first ones and then the others. -/
theorem executeAll_append (limit : Nat) (first second : List Statement) :
    executeAll limit (first ++ second) = (do executeAll limit first; executeAll limit second) := by
  induction first with
  | nil => rw [List.nil_append, executeAll, pure_bind]
  | cons statement rest inductionHypothesis =>
      rw [List.cons_append, executeAll, executeAll, inductionHypothesis, bind_assoc]

/-- A program that goes on in another place, after one that has come to its end, does what it
does on the store that is left, and its errors are in that other place. -/
theorem program_append
    {limit : Nat}
    {store : Store}
    {first : Program}
    (ended : (program limit store first).halt = none)
    (place : Position → Position)
    (second : Program) :
    let earlier := program limit store first
    let later := program limit earlier.store second
    program limit store (first ++ Program.relabel (.moving place) second) =
      ⟨later.store, earlier.lines ++ later.lines,
        later.halt.map (Halt.relabel (.moving place))⟩ := by
  simp only [program, start] at ended ⊢
  cases ran : executeAll limit first ⟨store, #[]⟩ with
  | error halt last =>
      rw [ran] at ended
      cases ended
  | ok value middle =>
      have carried : (relabelled (.moving place) middle.printed).Carries id _ _ :=
        carries_executeAll Function.injective_id limit second
      have begun : (relabelled (.moving place) middle.printed).state ⟨middle.store, #[]⟩ =
          middle := by
        simp [relabelled, Relabel.moving, Store.rename_id]
      have joined : executeAll limit (first ++ Program.relabel (.moving place) second)
          ⟨store, #[]⟩ = (relabelled (.moving place) middle.printed).result id
            (executeAll limit second ⟨middle.store, #[]⟩) := by
        rw [executeAll_append, ← carried, begun]
        show EStateM.bind _ _ _ = _
        rw [EStateM.bind, ran]
      rw [joined]
      cases executeAll limit second ⟨middle.store, #[]⟩ with
      | ok _ last => simp [Translation.result, relabelled, Relabel.moving, Store.rename_id]
      | error halt last =>
          simp [Translation.result, relabelled, Relabel.moving, Store.rename_id]

end Evaluate

/-- The failure, relabelled.  Only errors of a run are told by names and positions of the
program. -/
def Failure.relabel (relabel : Relabel) : Failure → Failure
  | .run error => .run (error.relabel relabel)
  | other => other

/-- The failure of a relabelled run is the relabelled failure. -/
theorem Failure.ofHalt_relabel (relabel : Relabel) (halt : Evaluate.Halt) :
    Failure.ofHalt (halt.relabel relabel) = (Failure.ofHalt halt).relabel relabel := by
  cases halt <;> rfl

namespace Session

/-- What a session does with a source that is a program. -/
theorem eval_of_parse
    {source : String}
    {program : Program}
    (parsed : parse source = .ok program)
    (session : Session) :
    let report := Evaluate.program Evaluate.patience session.store program
    ∃ events, session.eval source =
      (⟨report.lines, report.halt.map .ofHalt, events⟩,
        { session with store := report.store }) := by
  have made : Work.program source #[] = .ok program
      #[.tokenized (tokenize source).length, .parsed program.length] := by
    have read : parseTokens (tokenize source) = .ok program := parsed
    rw [Work.program, read]
    rfl
  exact ⟨_, by rw [eval, made]⟩

/-- Sources one after another are one source.  If each of two sources is a program, so are both
of them with a line feed between them: the statements of the first and then those of the
second, as many lines further down as there are line ends before them.  Where the first comes
to its end, a session that runs one after the other prints the lines, has the variables and
fails as one that runs both at once, with the errors of the second that many lines up. -/
theorem eval_join
    {first second : String}
    {earlier later : Program}
    (firstParsed : parse first = .ok earlier)
    (secondParsed : parse second = .ok later) :
    let down := Relabel.moving (Position.below (lineEnds (first ++ "\n")))
    parse (first ++ "\n" ++ second) = .ok (earlier ++ Program.relabel down later) ∧
    ∀ session : Session, (session.eval first).1.failure = none →
      let former := session.eval first
      let latter := former.2.eval second
      let whole := session.eval (first ++ "\n" ++ second)
      whole.1.lines = former.1.lines ++ latter.1.lines ∧
      whole.2 = latter.2 ∧
      whole.1.failure = latter.1.failure.map (Failure.relabel down) := by
  have parsed := parse_join firstParsed secondParsed
  refine ⟨parsed, fun session succeeded => ?_⟩
  obtain ⟨firstEvents, former⟩ := eval_of_parse firstParsed session
  obtain ⟨secondEvents, latter⟩ := eval_of_parse secondParsed (session.eval first).2
  obtain ⟨events, whole⟩ := eval_of_parse parsed session
  rw [former] at succeeded latter
  have ended : (Evaluate.program Evaluate.patience session.store earlier).halt = none := by
    simpa using succeeded
  have appended := Evaluate.program_append ended (Position.below (lineEnds (first ++ "\n"))) later
  simp only [former, latter, whole, appended]
  simp [Function.comp_def, Failure.ofHalt_relabel]

/-- A test without an alternate, with nothing to be done, is a program. -/
theorem parse_of_test
    {source : String}
    {word value opens closes ending : Token}
    {test : Expression}
    (isTokens : tokenize source = [word, value, opens, closes, ending])
    (isWord : word.kind = .ifWord)
    (isTest : Grammar.Value value test)
    (isOpen : opens.kind = .blockOpen)
    (isClose : closes.kind = .blockClose)
    (isEnd : ending.kind = .endOfInput) :
    parse source = .ok [.conditional test [] [] []] := by
  have body := Grammar.Spells.block isOpen .noStatements isClose
  have only := Grammar.Spells.conditional isWord (.ofValue isTest) body .noClauses .noAlternate
  have whole := Grammar.Spells.statements only .noStatements
  have before : Parse.beforeEnd ([word, value, opens, closes] ++ [ending]) =
      [word, value, opens, closes] := Parse.beforeEnd_append whole.endless isEnd
  rw [parse, isTokens]
  refine Parse.parseTokens_complete ?_
  exact before ▸ whole

/-- A conditional without an alternate, a comment, and a carriage return. -/
def commentedSource : String := "🤔❌🔜🔚🪧\r"

/-- A test of a variable. -/
def testingSource : String := "🤔y🔜🔚"

theorem parse_commentedSource :
    parse commentedSource = .ok [.conditional (.literal (.boolean false) ⟨1, 2⟩) [] [] []] := by
  have tokens : tokenize commentedSource = [⟨.ifWord, ⟨0, 4⟩, ⟨1, 1⟩⟩,
      ⟨.falseLiteral, ⟨4, 7⟩, ⟨1, 2⟩⟩, ⟨.blockOpen, ⟨7, 11⟩, ⟨1, 3⟩⟩,
      ⟨.blockClose, ⟨11, 15⟩, ⟨1, 4⟩⟩, .endOfInput 20 ⟨1, 7⟩] :=
    Scan.tokenize_of_yields (by decide +kernel)
  exact parse_of_test tokens rfl (.no rfl) rfl rfl rfl

theorem parse_testingSource :
    parse testingSource = .ok [.conditional (.name ⟨"y", ⟨1, 2⟩⟩) [] [] []] := by
  have tokens : tokenize testingSource = [⟨.ifWord, ⟨0, 4⟩, ⟨1, 1⟩⟩,
      ⟨.identifier "y", ⟨4, 5⟩, ⟨1, 2⟩⟩, ⟨.blockOpen, ⟨5, 9⟩, ⟨1, 3⟩⟩,
      ⟨.blockClose, ⟨9, 13⟩, ⟨1, 4⟩⟩, .endOfInput 13 ⟨1, 5⟩] :=
    Scan.tokenize_of_yields (by decide +kernel)
  exact parse_of_test tokens rfl (.name rfl) rfl rfl rfl

theorem eval_join_commentedSource :
    let session := Session.ofOptions .default
    (session.eval commentedSource).1.failure = none ∧
    ((session.eval commentedSource).2.eval testingSource).1.failure =
      some (.run ⟨.undeclared "y", some ⟨1, 2⟩⟩) ∧
    (session.eval (commentedSource ++ "\n" ++ testingSource)).1.failure =
      some (.run ⟨.undeclared "y", some ⟨2, 2⟩⟩) := by
  intro session
  obtain ⟨firstEvents, former⟩ := eval_of_parse parse_commentedSource session
  have succeeded : (session.eval commentedSource).1.failure = none := by
    rw [former]
    rfl
  obtain ⟨secondEvents, latter⟩ := eval_of_parse parse_testingSource
    (session.eval commentedSource).2
  have failed : ((session.eval commentedSource).2.eval testingSource).1.failure =
      some (.run ⟨.undeclared "y", some ⟨1, 2⟩⟩) := by
    rw [latter, former]
    rfl
  obtain ⟨-, joined⟩ := eval_join parse_commentedSource parse_testingSource
  obtain ⟨-, -, fails⟩ := joined session succeeded
  refine ⟨succeeded, failed, ?_⟩
  have lines : lineEnds (commentedSource ++ "\n") = 1 := by decide +kernel
  rw [fails, failed, lines]
  rfl

end Session
end Pictogram
