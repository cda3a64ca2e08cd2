import Pictogram.Token.Scan
import Mathlib.Data.List.TakeWhile

/-!
# What gaps and tokens look like

A gap is a run of blank clusters, stray decimal points and comments.  A token is
spelled by its symbol, by its name, by keycaps and points, or by a text between
speech balloons.  The scanner takes a gap off the front of a run of clusters,
and then the spelling of a token.
-/

namespace Pictogram
namespace Scan

/-- What may stand between two tokens.  Only a source that `ends` behind the gap may leave a
comment without a line end. -/
inductive Gap (ends : Prop) : List Cluster → Prop
  | nil : Gap ends []
  | blank {cluster : Cluster} {rest : List Cluster} :
      Symbol.isBlank cluster →
      Gap ends rest →
      Gap ends (cluster :: rest)
  | point {rest : List Cluster} :
      Gap ends rest →
      Gap ends (Symbol.decimalPoint :: rest)
  | comment {body rest : List Cluster} {newline : Cluster} :
      (∀ cluster ∈ body, ¬cluster.isNewline) →
      newline.isNewline →
      Gap ends rest →
      Gap ends (Symbol.sign :: (body ++ newline :: rest))
  | lastComment {body : List Cluster} :
      ends →
      (∀ cluster ∈ body, ¬cluster.isNewline) →
      Gap ends (Symbol.sign :: body)

/-- What is a gap in the middle of a source is one at its end. -/
theorem Gap.mono
    {ends atEnd : Prop}
    {run : List Cluster}
    (gap : Gap ends run)
    (implies : ends → atEnd) :
    Gap atEnd run := by
  induction gap with
  | nil => exact .nil
  | blank isBlank _ inductionHypothesis => exact .blank isBlank inductionHypothesis
  | point _ inductionHypothesis => exact .point inductionHypothesis
  | comment oneLine newline _ inductionHypothesis =>
      exact .comment oneLine newline inductionHypothesis
  | lastComment isEnd oneLine => exact .lastComment (implies isEnd) oneLine

/-- The cluster that shows a digit or a point of a number. -/
def numeral (character : Char) : Cluster :=
  if character = '.' then Symbol.decimalPoint else Symbol.keycap character

/-- The run of clusters that a token of some kind is spelled by.  Only a source that `ends`
behind the token may leave a string without its second speech balloon. -/
inductive Spells (ends : Prop) : Token.Kind → List Cluster → Prop
  | symbol {kind : Token.Kind} {run : List Cluster} :
      kind.symbol? = some run →
      Spells ends kind run
  | name {first : Cluster} {rest : List Cluster} :
      (∀ cluster ∈ first :: rest, continuesName cluster) →
      Spells ends (.identifier (Cluster.join (first :: rest))) (first :: rest)
  | number {first : Char} {rest : List Char} :
      first.isDigit →
      (∀ character ∈ rest, character.isDigit ∨ character = '.') →
      Spells ends (.number (String.ofList (first :: rest))) ((first :: rest).map numeral)
  | string {content : List Cluster} :
      (∀ cluster ∈ content, cluster ≠ Symbol.speech) →
      Spells ends (.string (Cluster.join content)) (Symbol.speech :: (content ++ [Symbol.speech]))
  | openString {content : List Cluster} :
      ends →
      (∀ cluster ∈ content, cluster ≠ Symbol.speech) →
      Spells ends (.string (Cluster.join content)) (Symbol.speech :: content)

/-- What spells a token in the middle of a source does so at its end. -/
theorem Spells.mono
    {ends atEnd : Prop}
    {kind : Token.Kind}
    {run : List Cluster}
    (spells : Spells ends kind run)
    (implies : ends → atEnd) :
    Spells atEnd kind run := by
  cases spells with
  | symbol isSymbol => exact .symbol isSymbol
  | name continues => exact .name continues
  | number isDigit others => exact .number isDigit others
  | string inside => exact .string inside
  | openString isEnd inside => exact .openString (implies isEnd) inside

/-- No run of clusters spells the end of the input. -/
theorem Spells.kind_ne_endOfInput
    {ends : Prop}
    {kind : Token.Kind}
    {run : List Cluster}
    (spells : Spells ends kind run) :
    kind ≠ .endOfInput := by
  rintro rfl
  cases spells with
  | symbol isSymbol => cases isSymbol

/-! ## Gaps -/

/-- A cluster that no gap begins with. -/
structure Starts (cluster : Cluster) : Prop where
  notBlank : Symbol.isBlank cluster = false
  notPoint : cluster ≠ Symbol.decimalPoint
  notSign : cluster ≠ Symbol.sign

/-- What goes on with a gap: inside a comment, the rest of the comment comes first. -/
def GoesOn (inComment : Bool) (ends : Prop) (taken : List Cluster) : Prop :=
  if inComment then
    ∀ body, (∀ cluster ∈ body, ¬cluster.isNewline) → Gap ends (Symbol.sign :: (body ++ taken))
  else Gap ends taken

theorem goesOn_comment
    {cluster : Cluster}
    {ends : Prop}
    {taken : List Cluster}
    (goesOn : GoesOn (!cluster.isNewline) ends taken) :
    GoesOn true ends (cluster :: taken) := by
  intro body oneLine
  cases newline : cluster.isNewline with
  | true =>
      rw [newline] at goesOn
      exact .comment oneLine newline goesOn
  | false =>
      rw [newline] at goesOn
      have longer := goesOn (body ++ [cluster]) (by
        rw [List.forall_mem_append]
        exact ⟨oneLine, by simp [newline]⟩)
      rwa [List.append_assoc] at longer

/-- A gap is taken off the front of a run of clusters. -/
theorem gap_eq (inComment : Bool) (skipped run : List Cluster) :
    ∃ taken rest, gap inComment skipped run = (skipped.reverse ++ taken, rest) ∧
      run = taken ++ rest ∧
      (∀ first ∈ rest.head?, Starts first) ∧
      GoesOn inComment (rest = []) taken := by
  induction run generalizing skipped inComment with
  | nil =>
      refine ⟨[], [], by simp [gap], rfl, by simp, ?_⟩
      cases inComment with
      | false => exact .nil
      | true => exact fun body oneLine => .lastComment rfl (by simpa using oneLine)
  | cons cluster others inductionHypothesis =>
      have step (inside : Bool) (whole : ∀ {ends taken}, GoesOn inside ends taken →
          GoesOn inComment ends (cluster :: taken)) :
          ∃ taken rest, gap inside (cluster :: skipped) others = (skipped.reverse ++ taken, rest) ∧
            cluster :: others = taken ++ rest ∧
            (∀ first ∈ rest.head?, Starts first) ∧
            GoesOn inComment (rest = []) taken := by
        obtain ⟨taken, rest, isGap, split, starts, goesOn⟩ :=
          inductionHypothesis inside (cluster :: skipped)
        exact ⟨cluster :: taken, rest, by simp [isGap], by simp [split], starts, whole goesOn⟩
      unfold gap
      cases inComment with
      | true => exact step _ goesOn_comment
      | false =>
          simp only [Bool.false_eq_true, if_false]
          split
          · rename_i blankOrPoint
            refine step false fun goesOn => ?_
            rcases Bool.or_eq_true_iff.mp blankOrPoint with blank | point
            · exact .blank blank goesOn
            · obtain rfl := of_decide_eq_true point
              exact .point goesOn
          · rename_i neither
            split
            · rename_i isSign
              subst isSign
              exact step true fun goesOn => goesOn [] (by simp)
            · rename_i notSign
              rw [Bool.or_eq_true_iff, not_or] at neither
              refine ⟨[], cluster :: others, by simp, rfl, ?_, .nil⟩
              rintro first ⟨⟩
              exact ⟨by simpa using neither.1, by simpa using neither.2, notSign⟩

/-! ## Tokens -/

/-- A lexeme cuts a run of clusters behind the spelling of its kind. -/
structure Lexeme.Cuts (lexeme : Lexeme) (run : List Cluster) : Prop where
  /-- The run is what spells the token, and what follows. -/
  run_eq : run = lexeme.spelling ++ lexeme.rest
  /-- At least one cluster is taken. -/
  nonempty : lexeme.spelling ≠ []
  /-- What is taken spells the token. -/
  spells : Spells (lexeme.rest = []) lexeme.kind lexeme.spelling

theorem pairing_cuts
    {first second : Cluster}
    {alone together : Token.Kind}
    (aloneSymbol : alone.symbol? = some [first])
    (togetherSymbol : together.symbol? = some [first, second])
    (rest : List Cluster) :
    (pairing first second alone together rest).Cuts (first :: rest) := by
  cases rest with
  | nil => exact ⟨rfl, by simp [pairing], .symbol aloneSymbol⟩
  | cons next others =>
      simp only [pairing]
      split
      · rename_i same
        subst same
        exact ⟨rfl, by simp, .symbol togetherSymbol⟩
      · exact ⟨rfl, by simp, .symbol aloneSymbol⟩

/-- A string cuts off all up to its second speech balloon, or all that is left. -/
theorem stringLexeme_cuts (rest : List Cluster) :
    (stringLexeme rest).Cuts (Symbol.speech :: rest) := by
  have whole := List.takeWhile_append_dropWhile (p := (· ≠ Symbol.speech)) (l := rest)
  have inside : ∀ cluster ∈ rest.takeWhile (· ≠ Symbol.speech), cluster ≠ Symbol.speech := by
    intro cluster present
    simpa using List.mem_takeWhile_imp present
  have closes := List.head?_dropWhile_not (· ≠ Symbol.speech) rest
  unfold stringLexeme
  -- The content and what is behind it are named, and the source is put together from them.
  generalize rest.takeWhile (· ≠ Symbol.speech) = content at whole inside ⊢
  generalize rest.dropWhile (· ≠ Symbol.speech) = behind at whole closes ⊢
  subst whole
  cases behind with
  | nil => exact ⟨rfl, by simp, .openString rfl inside⟩
  | cons close others =>
      obtain rfl : close = Symbol.speech := by simpa using closes
      exact ⟨by simp, by simp, .string inside⟩

/-- The digit or the point that a cluster of a number shows. -/
def shown (cluster : Cluster) : Char := (Symbol.digit? cluster).getD '.'

/-- Only the keycap of a digit shows it. -/
theorem eq_keycap_of_digit?
    {cluster : Cluster}
    {digit : Char}
    (shows : Symbol.digit? cluster = some digit) :
    cluster = Symbol.keycap digit ∧ digit.isDigit := by
  unfold Symbol.digit? at shows
  split at shows
  · split at shows
    · rename_i isDigit
      obtain rfl := Option.some.inj shows
      exact ⟨rfl, isDigit⟩
    · cases shows
  · cases shows

theorem numeral_shown
    {cluster : Cluster}
    (continues : continuesNumber cluster) :
    numeral (shown cluster) = cluster ∧ ((shown cluster).isDigit ∨ shown cluster = '.') := by
  unfold shown
  cases shows : Symbol.digit? cluster with
  | some digit =>
      obtain ⟨rfl, isDigit⟩ := eq_keycap_of_digit? shows
      have notPoint : digit ≠ '.' := by
        rintro rfl
        cases isDigit
      exact ⟨if_neg notPoint, .inl isDigit⟩
  | none =>
      obtain rfl : cluster = Symbol.decimalPoint := by
        simpa [continuesNumber, shows] using continues
      exact ⟨rfl, .inr rfl⟩

/-- A number cuts off all the clusters that continue it. -/
theorem number_cuts
    {first : Cluster}
    (isDigit : (Symbol.digit? first).isSome)
    (rest : List Cluster) :
    Lexeme.Cuts
      ⟨.number (numberText (first :: rest.takeWhile continuesNumber)),
        first :: rest.takeWhile continuesNumber, rest.dropWhile continuesNumber⟩
      (first :: rest) where
  run_eq := by simp [List.takeWhile_append_dropWhile]
  nonempty := by simp
  spells := by
    obtain ⟨digit, shows⟩ := Option.isSome_iff_exists.mp isDigit
    have continues : ∀ cluster ∈ first :: rest.takeWhile continuesNumber,
        continuesNumber cluster := by
      refine List.forall_mem_cons.mpr ⟨by simp [continuesNumber, isDigit], ?_⟩
      intro cluster present
      exact List.mem_takeWhile_imp present
    have spelled : ((first :: rest.takeWhile continuesNumber).map shown).map numeral =
        first :: rest.takeWhile continuesNumber := by
      rw [List.map_map, List.map_congr_left (g := id), List.map_id]
      intro cluster present
      exact (numeral_shown (continues cluster present)).1
    have number : Spells (rest.dropWhile continuesNumber = [])
        (.number (numberText (first :: rest.takeWhile continuesNumber)))
        (((first :: rest.takeWhile continuesNumber).map shown).map numeral) := by
      refine .number ?_ ?_
      · simpa [shown, shows] using (eq_keycap_of_digit? shows).2
      · intro character present
        obtain ⟨cluster, inside, rfl⟩ := List.mem_map.mp present
        exact (numeral_shown (continues cluster (List.mem_cons_of_mem _ inside))).2
    rwa [spelled] at number

/-- What goes on with a name is no symbol and not blank. -/
theorem continuesName_iff {cluster : Cluster} :
    continuesName cluster ↔
      cluster ≠ Symbol.decimalPoint ∧ cluster ≠ Symbol.speech ∧ cluster ≠ Symbol.sign ∧
        Token.Kind.ofCluster? cluster = none ∧ Symbol.digit? cluster = none ∧
        Symbol.isBlank cluster = false := by
  rw [continuesName, Bool.not_eq_true', Bool.or_eq_false_iff, ← Bool.not_eq_true,
    Symbol.isReserved_iff]
  simp only [not_or, Option.not_isSome_iff_eq_none, and_assoc]

/-- The scanner cuts a token off the front of what it stands in front of. -/
theorem lexeme_cuts
    {first : Cluster}
    (starts : Starts first)
    (rest : List Cluster) :
    (lexeme first rest).Cuts (first :: rest) := by
  unfold lexeme
  split
  · rename_i isBalance
    subst isBalance
    exact pairing_cuts rfl rfl rest
  · split
    · rename_i isHand
      subst isHand
      exact pairing_cuts rfl rfl rest
    · split
      · rename_i isSpeech
        subst isSpeech
        exact stringLexeme_cuts rest
      · rename_i notSpeech
        split
        · rename_i isDigit
          exact number_cuts isDigit rest
        · rename_i notDigit
          split
          · rename_i kind found
            exact ⟨rfl, by simp, .symbol (Token.Kind.ofCluster?_eq_some_iff.mp found)⟩
          · rename_i notSymbol
            refine ⟨by simp [List.takeWhile_append_dropWhile], by simp, .name ?_⟩
            refine List.forall_mem_cons.mpr ⟨?_, fun _ => List.mem_takeWhile_imp⟩
            rw [Option.not_isSome_iff_eq_none] at notDigit
            exact continuesName_iff.mpr ⟨starts.notPoint, notSpeech, starts.notSign, notSymbol,
              notDigit, starts.notBlank⟩

end Scan
end Pictogram
