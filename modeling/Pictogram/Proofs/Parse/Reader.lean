import Pictogram.Proofs.Parse.Completeness

/-!
# Readers

The routines of the parser as readers, which take tokens off the front of a list without
counting them.

A reader follows a grammar if it takes sentences only, and fails where the tokens that it has
taken are the beginning of a sentence.  Of the tokens that it leaves it may look at the first.
-/

namespace Pictogram
namespace Parse

/-- A part of a parse. -/
abbrev Reader := StateT (List Token) (Except Failure)

/-- What a parse gave, and the tokens that it left. -/
def bare {α : Type} {tokens : List Token} : Outcome α tokens → Except Failure (α × List Token)
  | .ok progress => .ok (progress.value, progress.rest)
  | .error failure => .error failure

/-- The reader that parses from the beginning. -/
def reader {α : Type} (parse : (tokens : List Token) → Outcome α tokens) : Reader α :=
  fun tokens => bare (parse tokens)

/-- The reader that goes on with a parse which has given a value. -/
def resume
    {α β : Type}
    (parse : {tokens : List Token} → Progress α tokens → Outcome β tokens)
    (value : α) : Reader β :=
  fun rest => bare (parse (.take value (current rest) rest))

/-- A sequence of parses is read one after the other. -/
theorem bare_bind
    {α β : Type}
    {tokens others rest : List Token}
    {first : Outcome α tokens}
    {next : Progress α tokens → Outcome β others}
    {read : Reader α}
    {following : α → Reader β}
    (firstSame : bare first = read rest)
    (nextSame : ∀ progress, bare (next progress) = following progress.value progress.rest) :
    bare (first >>= next) = (read >>= following) rest := by
  show _ = read rest >>= _
  rw [← firstSame]
  cases first with
  | error failure => rfl
  | ok progress => exact nextSame progress

/-- A parse whose outcome is only counted from other tokens. -/
theorem bare_map
    {α : Type}
    {tokens others : List Token}
    {parse : Outcome α tokens}
    {shorter : ∀ progress : Progress α tokens, progress.rest.length < others.length} :
    bare (parse >>= fun progress =>
      (pure ⟨progress.value, progress.rest, shorter progress⟩ : Outcome α others)) =
      bare parse := by
  cases parse with
  | error failure => rfl
  | ok progress => rfl

theorem bare_bind_congr
    {α β : Type}
    {tokens left right : List Token}
    {first : Outcome α tokens}
    {next : Progress α tokens → Outcome β left}
    {next' : Progress α tokens → Outcome β right}
    (same : ∀ progress, bare (next progress) = bare (next' progress)) :
    bare (first >>= next) = bare (first >>= next') := by
  cases first with
  | error failure => rfl
  | ok progress => exact same progress

/-! ## Readers that follow a grammar -/

/-- A reader takes a sentence off the front of the tokens, or it fails behind the beginning of
one.  It does so whatever comes behind the token that it leaves at the front. -/
inductive Follows
    {α : Type}
    (sentence : List Token → α → Prop)
    (read : Reader α)
    (tokens : List Token) : Prop where
  | takes
    (used rest : List Token)
    {value : α}
    (split : tokens = used ++ rest)
    (taken : sentence used value)
    (again : ∀ others, current others = current rest → read (used ++ others) = .ok (value, others))
  | fails
    (used rest more : List Token)
    {value : α}
    {error : Error}
    (split : tokens = used ++ rest)
    (begun : sentence (used ++ more) value)
    (isHere : error.position = (current rest).position)
    (again : ∀ others, current others = current rest →
      read (used ++ others) = .error ⟨error, others⟩)

/-- The sentences that are single tokens. -/
def OneToken {α : Type} (names : Token → α → Prop) (used : List Token) (value : α) : Prop :=
  ∃ token, used = [token] ∧ names token value

/-- Two lists with one next token have one next token with the same tokens in front. -/
theorem current_append
    {others rest : List Token}
    (same : current others = current rest)
    (used : List Token) :
    current (used ++ others) = current (used ++ rest) := by
  cases used with
  | nil => exact same
  | cons => rfl

theorem length_le_of_split
    {tokens used rest : List Token}
    (split : tokens = used ++ rest) :
    rest.length ≤ tokens.length := by
  rw [split]
  exact (List.suffix_append used rest).length_le

namespace Follows

variable {α β : Type} {sentence : List Token → α → Prop} {tokens : List Token}

protected theorem pure {value : α} (nothing : sentence [] value) :
    Follows sentence (pure value) tokens :=
  .takes [] tokens rfl nothing fun _ _ => rfl

/-- One reader after another.  If the first fails, what it has begun can be filled up for both
of them. -/
protected theorem bind
    {former : List Token → β → Prop}
    {read : Reader β}
    {next : β → Reader α}
    (firstFollows : Follows former read tokens)
    (filled : ∀ used value, former used value → ∃ more result, sentence (used ++ more) result)
    (nextFollows : ∀ used value rest, tokens = used ++ rest → former used value →
      Follows (fun more => sentence (used ++ more)) (next value) rest) :
    Follows sentence (read >>= next) tokens := by
  cases firstFollows with
  | fails used rest more split begun isHere again =>
      obtain ⟨filling, result, begun⟩ := filled _ _ begun
      rw [List.append_assoc] at begun
      refine .fails used rest _ split begun isHere fun others same => ?_
      show read (used ++ others) >>= _ = _
      rw [again others same]
      rfl
  | @takes used rest value split taken again =>
      have both : ∀ usedNext others, current (usedNext ++ others) = current rest →
          (read >>= next) (used ++ usedNext ++ others) = next value (usedNext ++ others) := by
        intro usedNext others same
        show read (used ++ usedNext ++ others) >>= _ = _
        rw [List.append_assoc, again _ same]
        rfl
      cases nextFollows used value rest split taken with
      | takes usedNext last splitNext takenNext againNext =>
          refine .takes (used ++ usedNext) last ?_ takenNext fun others same => ?_
          · rw [split, splitNext, List.append_assoc]
          · rw [both usedNext others (splitNext ▸ current_append same usedNext),
              againNext others same]
      | fails usedNext last more splitNext begunNext isHere againNext =>
          rw [← List.append_assoc] at begunNext
          refine .fails (used ++ usedNext) last more ?_ begunNext isHere fun others same => ?_
          · rw [split, splitNext, List.append_assoc]
          · rw [both usedNext others (splitNext ▸ current_append same usedNext),
              againNext others same]

/-- A single token and then another reader. -/
theorem bind_token
    {names : Token → β → Prop}
    {read : Reader β}
    {next : β → Reader α}
    (firstFollows : Follows (OneToken names) read tokens)
    (filled : ∀ token value, names token value → ∃ more result, sentence (token :: more) result)
    (nextFollows : ∀ token value rest, tokens = token :: rest → names token value →
      Follows (fun more => sentence (token :: more)) (next value) rest) :
    Follows sentence (read >>= next) tokens := by
  refine firstFollows.bind ?_ ?_
  · rintro _ value ⟨token, rfl, named⟩
    exact filled token value named
  · rintro _ value rest split ⟨token, rfl, named⟩
    exact nextFollows token value rest split named

/-- A reader whose value is made into another one. -/
protected theorem map
    {former : List Token → β → Prop}
    {read : Reader β}
    {f : β → α}
    (follows : Follows former read tokens)
    (made : ∀ used value, former used value → sentence used (f value)) :
    Follows sentence (read >>= fun value => Pure.pure (f value)) tokens := by
  have whole (used : List Token) (value : β) (taken : former used value) :
      sentence (used ++ []) (f value) := by
    rw [List.append_nil]
    exact made used value taken
  refine follows.bind (fun used value taken => ?_) fun used value rest _ taken => ?_
  · exact ⟨[], f value, whole used value taken⟩
  · exact .pure (whole used value taken)

/-- A reader that takes the first token and goes on with another reader. -/
theorem cons
    {read inner : Reader α}
    {token : Token}
    {rest : List Token}
    (same : ∀ rest, read (token :: rest) = inner rest)
    (innerFollows : Follows (fun used => sentence (token :: used)) inner rest) :
    Follows sentence read (token :: rest) := by
  cases innerFollows with
  | takes used last split taken again =>
      refine .takes (token :: used) last (congrArg (token :: ·) split) taken fun others first => ?_
      exact (same _).trans (again others first)
  | fails used last more split begun isHere again =>
      refine .fails (token :: used) last more (congrArg (token :: ·) split) begun isHere
        fun others first => ?_
      exact (same _).trans (again others first)

/-- A reader that chooses another one by the first token. -/
theorem of_current
    {read chosen : Reader α}
    (same : ∀ others, current others = current tokens → read others = chosen others)
    (chosenFollows : Follows sentence chosen tokens) :
    Follows sentence read tokens := by
  cases chosenFollows with
  | takes used rest split taken again =>
      refine .takes used rest split taken fun others first => ?_
      rw [same _ (split ▸ current_append first used), again others first]
  | fails used rest more split begun isHere again =>
      refine .fails used rest more split begun isHere fun others first => ?_
      rw [same _ (split ▸ current_append first used), again others first]

/-- A reader that fails at the first token. -/
theorem of_fail
    {read : Reader α}
    (construct : Construct)
    (fault : Fault)
    {more : List Token}
    {value : α}
    (begun : sentence more value)
    (failed : ∀ others, current others = current tokens →
      read others = fail construct fault others) :
    Follows sentence read tokens := by
  have isHere : (⟨(current tokens).position, construct, fault⟩ : Error).position =
      (current tokens).position := rfl
  refine .fails [] tokens more rfl begun isHere fun others same => ?_
  rw [List.nil_append, failed others same, fail, same]

/-- A reader that follows sentences follows any that they are. -/
theorem mono
    {weaker : List Token → α → Prop}
    {read : Reader α}
    (follows : Follows sentence read tokens)
    (implies : ∀ used value, sentence used value → weaker used value) :
    Follows weaker read tokens := by
  cases follows with
  | takes used rest split taken again => exact .takes used rest split (implies _ _ taken) again
  | fails used rest more split begun isHere again =>
      exact .fails used rest more split (implies _ _ begun) isHere again

end Follows

/-! ## Single tokens -/

/-- A token of some kind. -/
def sample (kind : Token.Kind) : Token := ⟨kind, default, default⟩

section Tokens

variable {construct : Construct} {tokens : List Token}

/-- If the next token is not the end of the input, there is one. -/
theorem exists_cons_of_kind
    {kind : Token.Kind}
    (isKind : (current tokens).kind = kind)
    (notEnd : kind ≠ .endOfInput) :
    ∃ span position rest, tokens = ⟨kind, span, position⟩ :: rest := by
  cases tokens with
  | nil => exact absurd isKind.symm notEnd
  | cons token rest =>
      obtain ⟨_, span, position⟩ := token
      obtain rfl := isKind
      exact ⟨span, position, rest, rfl⟩

/-- An expected token is taken off the front. -/
theorem expect_follows
    {kind : Token.Kind}
    {fault : Token.Kind → Fault}
    (notEnd : kind ≠ .endOfInput) :
    Follows (OneToken fun token _ => token.kind = kind) (reader (expect construct kind fault))
      tokens := by
  have one (token : Token) (isKind : token.kind = kind) :
      OneToken (fun token (_ : Token) => token.kind = kind) [token] token := ⟨token, rfl, isKind⟩
  by_cases isKind : (current tokens).kind = kind
  · obtain ⟨span, position, rest, rfl⟩ := exists_cons_of_kind isKind notEnd
    refine .takes [⟨kind, span, position⟩] rest rfl (one _ rfl) fun others _ => ?_
    show bare (expect construct kind fault (⟨kind, span, position⟩ :: others)) = _
    rw [expect, if_pos rfl]
    rfl
  · refine .of_fail construct (fault (current tokens).kind) (one (sample kind) rfl)
      fun others same => ?_
    show bare (expect construct kind fault others) = _
    rw [← same] at isKind ⊢
    cases others with
    | nil => rfl
    | cons token rest =>
        have notKind : token.kind ≠ kind := isKind
        rw [expect, if_neg notKind]
        rfl

/-- An expected name is taken off the front. -/
theorem expectName_follows {after : Token.Kind} :
    Follows (OneToken fun token id => ∃ text, token.kind = .identifier text ∧
      id = ⟨text, token.position⟩) (reader (expectName construct after)) tokens := by
  by_cases isName : ∃ text, (current tokens).kind = .identifier text
  · obtain ⟨text, isName⟩ := isName
    obtain ⟨span, position, rest, rfl⟩ := exists_cons_of_kind isName nofun
    exact .takes [⟨.identifier text, span, position⟩] rest rfl ⟨_, rfl, text, rfl, rfl⟩
      fun others _ => rfl
  · refine .of_fail construct (.missingName after (current tokens).kind)
      ⟨sample (.identifier ""), rfl, "", rfl, rfl⟩ fun others same => ?_
    show bare (expectName construct after others) = _
    rw [← same] at isName ⊢
    cases others with
    | nil => rfl
    | cons token rest =>
        rw [expectName]
        split
        · next text isText => exact absurd ⟨text, isText⟩ isName
        · rfl

end Tokens

end Parse
end Pictogram
