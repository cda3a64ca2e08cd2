import Pictogram.Shell.Balance
import Pictogram.Proofs.Text.Cluster
import Pictogram.Proofs.Token.Coverage
import Pictogram.Proofs.Token.Sequence

/-!
# The check for a complete input and the tokens of the input

The check reads characters and the scanner reads clusters.  A symbol that carries
a variation selector is part of a name to the scanner, while the check sees the
symbol in it.  Where no name and no string holds such a symbol, the check answers
what the tokens of the input say.
-/

namespace Pictogram
namespace Shell

open Scan (Gap Spells Covers)

/-- The characters that the check stops at in code. -/
def delimiters : List Char :=
  [lead Symbol.speech, lead Symbol.sign, lead Symbol.soon, lead Symbol.finish]

/-- Whether the check passes over the characters in code. -/
def isPlain (run : List Char) : Bool := run.all fun c => !delimiters.contains c

/-- A kind whose text holds nothing that the check takes for a symbol. -/
def Clear : Token.Kind → Prop
  | .identifier name => isPlain name.toList
  | .string text => lead Symbol.speech ∉ text.toList
  | _ => True

/-- The number of tokens of a kind. -/
def count (kind : Token.Kind) (tokens : List Token) : Nat :=
  tokens.countP fun token => token.kind = kind

@[simp] theorem count_nil (kind : Token.Kind) : count kind [] = 0 := rfl

@[simp] theorem count_cons (kind : Token.Kind) (token : Token) (rest : List Token) :
    count kind (token :: rest) = count kind rest + if token.kind = kind then 1 else 0 := by
  simp [count, List.countP_cons]

/-- A string that has no second speech balloon. -/
def Unterminated (source : String) (token : Token) : Prop :=
  ∃ text, token.kind = .string text ∧
    token.span.slice source = Cluster.join [Symbol.speech] ++ text

/-- A block is closed where none is open.  So many blocks are open in front of the tokens. -/
def Overcloses (blocks : Nat) (tokens : List Token) : Prop :=
  ∃ before close after, tokens = before ++ close :: after ∧ close.kind = .blockClose ∧
    blocks + count .blockOpen before = count .blockClose before

/-- Tokens that complete an input, in front of which so many blocks are open: the parser will
refuse them, or all blocks are closed and all strings ended. -/
def Complete (source : String) (blocks : Nat) (tokens : List Token) : Prop :=
  Overcloses blocks tokens ∨
    (blocks + count .blockOpen tokens = count .blockClose tokens ∧
      ∀ token ∈ tokens, ¬Unterminated source token)

/-! ## One token more -/

theorem not_overcloses_nil (blocks : Nat) : ¬Overcloses blocks [] := by
  rintro ⟨before, close, after, split, -⟩
  simp at split

/-- The first block that is closed too often is the first token, or one behind it. -/
theorem overcloses_cons
    {blocks : Nat}
    {token : Token}
    {rest : List Token} :
    Overcloses blocks (token :: rest) ↔
      (token.kind = .blockClose ∧ blocks = 0) ∨
      ∃ before close after, rest = before ++ close :: after ∧ close.kind = .blockClose ∧
        blocks + count .blockOpen (token :: before) = count .blockClose (token :: before) := by
  constructor
  · rintro ⟨before, close, after, split, isClose, level⟩
    cases before with
    | nil =>
        obtain ⟨rfl, rfl⟩ := List.cons.inj split
        exact .inl ⟨isClose, level⟩
    | cons first before =>
        obtain ⟨rfl, rfl⟩ := List.cons.inj split
        exact .inr ⟨before, close, after, rfl, isClose, level⟩
  · rintro (⟨isClose, rfl⟩ | ⟨before, close, after, rfl, isClose, level⟩)
    · exact ⟨[], token, rest, rfl, isClose, rfl⟩
    · exact ⟨token :: before, close, after, rfl, isClose, level⟩

/-- A token that is no bracket does not change whether blocks are closed too often. -/
theorem overcloses_cons_of_ne
    {token : Token}
    (notOpen : token.kind ≠ .blockOpen)
    (notClose : token.kind ≠ .blockClose)
    (blocks : Nat)
    (rest : List Token) :
    Overcloses blocks (token :: rest) ↔ Overcloses blocks rest := by
  simp only [overcloses_cons, count_cons, notOpen, notClose, if_false, false_and, false_or,
    Nat.add_zero]
  rfl

/-- A token that neither begins nor ends a block says only whether it is a string left open. -/
theorem complete_cons_of_ne
    {source : String}
    {token : Token}
    (notOpen : token.kind ≠ .blockOpen)
    (notClose : token.kind ≠ .blockClose)
    (blocks : Nat)
    (rest : List Token) :
    Complete source blocks (token :: rest) ↔
      Overcloses blocks rest ∨
        (¬Unterminated source token ∧ blocks + count .blockOpen rest = count .blockClose rest ∧
          ∀ other ∈ rest, ¬Unterminated source other) := by
  simp only [Complete, overcloses_cons_of_ne notOpen notClose, count_cons, notOpen, notClose,
    if_false, List.forall_mem_cons, Nat.add_zero, and_left_comm]

/-- Only a string can be unterminated. -/
theorem not_unterminated_of_ne_string
    {source : String}
    {token : Token}
    (notString : ∀ text, token.kind ≠ .string text) :
    ¬Unterminated source token := by
  rintro ⟨text, isString, -⟩
  exact notString text isString

/-- Opening a block leaves one more to be closed. -/
theorem complete_cons_open
    {source : String}
    {token : Token}
    (isOpen : token.kind = .blockOpen)
    (blocks : Nat)
    (rest : List Token) :
    Complete source blocks (token :: rest) ↔ Complete source (blocks + 1) rest := by
  have terminated : ¬Unterminated source token := not_unterminated_of_ne_string (by simp [isOpen])
  have level (before : List Token) :
      blocks + count .blockOpen (token :: before) = count .blockClose (token :: before) ↔
        blocks + 1 + count .blockOpen before = count .blockClose before := by
    simp only [count_cons, isOpen, reduceCtorEq, if_true, if_false]
    omega
  simp only [Complete, overcloses_cons, level, isOpen, reduceCtorEq, false_and, false_or,
    List.forall_mem_cons, terminated, not_false_iff, true_and]
  rfl

/-- Closing a block leaves one less to be closed. -/
theorem complete_cons_close
    {source : String}
    {token : Token}
    (isClose : token.kind = .blockClose)
    (blocks : Nat)
    (rest : List Token) :
    Complete source (blocks + 1) (token :: rest) ↔ Complete source blocks rest := by
  have terminated : ¬Unterminated source token := not_unterminated_of_ne_string (by simp [isClose])
  have level (before : List Token) :
      blocks + 1 + count .blockOpen (token :: before) = count .blockClose (token :: before) ↔
        blocks + count .blockOpen before = count .blockClose before := by
    simp only [count_cons, isClose, reduceCtorEq, if_true, if_false]
    omega
  simp only [Complete, overcloses_cons, level, Nat.add_one_ne_zero, and_false, false_or,
    List.forall_mem_cons, terminated, not_false_iff, true_and]
  rfl

/-- An input that closes a block too many is complete. -/
theorem complete_cons_close_zero
    {source : String}
    {token : Token}
    (isClose : token.kind = .blockClose)
    (rest : List Token) :
    Complete source 0 (token :: rest) :=
  .inl (overcloses_cons.mpr (.inl ⟨isClose, rfl⟩))

/-- At the end of the input, only the blocks that are open count. -/
theorem complete_end (source : String) (blocks offset : Nat) (position : Position) :
    Complete source blocks [.endOfInput offset position] ↔ blocks = 0 := by
  have terminated : ¬Unterminated source (.endOfInput offset position) :=
    not_unterminated_of_ne_string fun _ => Token.Kind.noConfusion
  rw [complete_cons_of_ne Token.Kind.noConfusion Token.Kind.noConfusion]
  simp [not_overcloses_nil, terminated]

/-- A string that takes the rest of the input leaves it open. -/
theorem not_complete_of_unterminated
    {source : String}
    {token : Token}
    (isOpen : Unterminated source token)
    (blocks offset : Nat)
    (position : Position) :
    ¬Complete source blocks [token, .endOfInput offset position] := by
  obtain ⟨text, isString, -⟩ := id isOpen
  rw [complete_cons_of_ne (by simp [isString]) (by simp [isString]),
    overcloses_cons_of_ne Token.Kind.noConfusion Token.Kind.noConfusion]
  simp [not_overcloses_nil, isOpen]

/-! ## Runs of characters -/

theorem isPlain_iff {run : List Char} : isPlain run ↔ ∀ c ∈ run, c ∉ delimiters := by
  simp [isPlain]

/-- The check passes over what holds no delimiter. -/
theorem closes_code_append
    {run : List Char}
    (plain : isPlain run)
    (blocks : Nat)
    (rest : List Char) :
    closes .code blocks (run ++ rest) = closes .code blocks rest := by
  induction run with
  | nil => rfl
  | cons c run inductionHypothesis =>
      obtain ⟨here, later⟩ := List.forall_mem_cons.mp (isPlain_iff.mp plain)
      simp only [delimiters, List.mem_cons, List.not_mem_nil, or_false, not_or] at here
      obtain ⟨notSpeech, notSign, notSoon, notFinish⟩ := here
      cases blocks <;>
        simpa [closes, notSpeech, notSign, notSoon, notFinish] using
          inductionHypothesis (isPlain_iff.mpr later)

/-- The check passes over the line of a comment. -/
theorem closes_comment_append
    {body : List Char}
    (oneLine : '\n' ∉ body)
    (blocks : Nat)
    (rest : List Char) :
    closes .comment blocks (body ++ rest) = closes .comment blocks rest := by
  induction body with
  | nil => rfl
  | cons c body inductionHypothesis =>
      obtain ⟨here, later⟩ := not_or.mp (mt List.mem_cons.mpr oneLine)
      rw [List.cons_append, closes, if_neg (Ne.symm here)]
      exact inductionHypothesis later

/-- The check passes over the text of a string. -/
theorem closes_string_append
    {content : List Char}
    (inside : lead Symbol.speech ∉ content)
    (blocks : Nat)
    (rest : List Char) :
    closes .string blocks (content ++ rest) = closes .string blocks rest := by
  induction content with
  | nil => rfl
  | cons c content inductionHypothesis =>
      obtain ⟨here, later⟩ := not_or.mp (mt List.mem_cons.mpr inside)
      rw [List.cons_append, closes, if_neg (Ne.symm here)]
      exact inductionHypothesis later

/-! ## Gaps and spellings -/

/-- A line feed can only be the last character of the cluster. -/
def EndsLine (cluster : Cluster) : Prop :=
  '\n' ∈ cluster → ∃ before, cluster = before ++ ['\n'] ∧ '\n' ∉ before

/-- Clusters that are no newlines hold no line feed. -/
theorem not_mem_flatten_of_oneLine
    {body : List Cluster}
    (oneLine : ∀ cluster ∈ body, ¬cluster.isNewline) :
    '\n' ∉ body.flatten := by
  intro present
  obtain ⟨cluster, inBody, inCluster⟩ := List.mem_flatten.mp present
  exact oneLine cluster inBody (List.contains_iff_mem.mpr inCluster)

/-- The check passes over a gap.  A comment without a line end is passed over at the end. -/
theorem closes_gap
    {ends : Prop}
    {run : List Cluster}
    (gap : Gap ends run)
    (lines : ∀ cluster ∈ run, EndsLine cluster)
    (rest : List Char)
    (isEnd : ends → rest = [])
    (blocks : Nat) :
    closes .code blocks (run.flatten ++ rest) = closes .code blocks rest := by
  have noBlank : ∀ c ∈ delimiters, Text.isBlank c = false := by
    simp only [delimiters, List.forall_mem_cons]
    exact ⟨rfl, rfl, rfl, rfl, List.forall_mem_nil _⟩
  have opens (body : List Char) :
      closes .code blocks (Symbol.sign ++ body) = closes .comment blocks body := by
    cases blocks <;> rfl
  induction gap with
  | nil => rfl
  | @blank cluster run isBlank _ inductionHypothesis =>
      have plain : isPlain cluster := by
        rw [isPlain_iff]
        intro c present isDelimiter
        have blank := List.all_eq_true.mp (Bool.and_eq_true_iff.mp isBlank).2 c present
        simp [noBlank c isDelimiter] at blank
      rw [List.flatten_cons, List.append_assoc, closes_code_append plain]
      exact inductionHypothesis (List.forall_mem_cons.mp lines).2
  | @point run _ inductionHypothesis =>
      rw [List.flatten_cons, List.append_assoc, closes_code_append (by decide)]
      exact inductionHypothesis (List.forall_mem_cons.mp lines).2
  | @comment body run newline oneLine isNewline _ inductionHypothesis =>
      -- The scanner ends the comment with a cluster, and the check with the line feed in it.
      rw [List.forall_mem_cons, List.forall_mem_append, List.forall_mem_cons] at lines
      obtain ⟨-, -, endsLine, later⟩ := lines
      obtain ⟨before, rfl, none⟩ := endsLine (List.contains_iff_mem.mp isNewline)
      have whole : (Symbol.sign :: (body ++ (before ++ ['\n']) :: run)).flatten ++ rest =
          Symbol.sign ++ (body.flatten ++ (before ++ '\n' :: (run.flatten ++ rest))) := by
        simp
      rw [whole, opens, closes_comment_append (not_mem_flatten_of_oneLine oneLine),
        closes_comment_append none]
      exact inductionHypothesis later
  | @lastComment body atEnd oneLine =>
      rw [List.flatten_cons, List.append_assoc, opens,
        closes_comment_append (not_mem_flatten_of_oneLine oneLine), isEnd atEnd]
      rfl

/-- No other symbol has a character that the check stops at. -/
theorem plain_of_symbol?
    {kind : Token.Kind}
    {run : List Cluster}
    (isSymbol : kind.symbol? = some run)
    (notOpen : kind ≠ .blockOpen)
    (notClose : kind ≠ .blockClose) :
    isPlain run.flatten := by
  cases kind with
  | blockOpen => exact absurd rfl notOpen
  | blockClose => exact absurd rfl notClose
  | number text | string text | identifier name | endOfInput => cases isSymbol
  | _ =>
      cases isSymbol
      decide

/-- A number holds no delimiter. -/
theorem plain_of_numerals
    {digits : List Char}
    (shown : ∀ c ∈ digits, c.isDigit ∨ c = '.') :
    isPlain (digits.map Scan.numeral).flatten := by
  have noDigit : ∀ c ∈ delimiters, c.isDigit = false := by
    simp only [delimiters, List.forall_mem_cons]
    exact ⟨rfl, rfl, rfl, rfl, List.forall_mem_nil _⟩
  rw [isPlain_iff]
  intro c present
  obtain ⟨cluster, isNumeral, inCluster⟩ := List.mem_flatten.mp present
  obtain ⟨digit, inDigits, rfl⟩ := List.mem_map.mp isNumeral
  by_cases isPoint : digit = '.'
  · rw [Scan.numeral, if_pos isPoint] at inCluster
    rw [List.mem_singleton.mp inCluster]
    decide
  · rw [Scan.numeral, if_neg isPoint] at inCluster
    have isDigit := (shown digit inDigits).resolve_right isPoint
    rcases List.mem_cons.mp inCluster with rfl | isMark
    · intro isDelimiter
      simp [noDigit c isDelimiter] at isDigit
    · have marks : isPlain ['\uFE0F', '\u20E3'] := by decide
      exact isPlain_iff.mp marks c isMark

/-- A speech balloon brings the check into a string. -/
theorem closes_string
    {content : List Cluster}
    (clear : lead Symbol.speech ∉ content.flatten)
    (blocks : Nat)
    (rest : List Char) :
    closes .code blocks ((Symbol.speech :: content).flatten ++ rest) =
      closes .string blocks rest := by
  rw [List.flatten_cons, List.append_assoc, ← closes_string_append clear]
  cases blocks <;> rfl

/-! ## The whole input -/

/-- A token that the check passes over is one that completes nothing. -/
theorem closes_plain
    {source : String}
    {token : Token}
    {spelling : List Char}
    {rest : List Char}
    {tokens : List Token}
    (plain : isPlain spelling)
    (notOpen : token.kind ≠ .blockOpen)
    (notClose : token.kind ≠ .blockClose)
    (terminated : ¬Unterminated source token)
    (later : ∀ blocks, closes .code blocks rest = true ↔ Complete source blocks tokens)
    (blocks : Nat) :
    closes .code blocks (spelling ++ rest) = true ↔ Complete source blocks (token :: tokens) := by
  rw [closes_code_append plain, later, complete_cons_of_ne notOpen notClose]
  simp [terminated, Complete]

/-- The check does with a symbol what completeness says of its token. -/
theorem closes_symbol
    {source : String}
    {token : Token}
    {spelling : List Cluster}
    {rest : List Char}
    {tokens : List Token}
    (isSymbol : token.kind.symbol? = some spelling)
    (later : ∀ blocks, closes .code blocks rest = true ↔ Complete source blocks tokens)
    (blocks : Nat) :
    closes .code blocks (spelling.flatten ++ rest) = true ↔
      Complete source blocks (token :: tokens) := by
  by_cases isOpen : token.kind = .blockOpen
  · rw [isOpen] at isSymbol
    cases isSymbol
    rw [complete_cons_open isOpen, ← later]
    cases blocks <;> rfl
  by_cases isClose : token.kind = .blockClose
  · rw [isClose] at isSymbol
    cases isSymbol
    cases blocks with
    | zero => exact iff_of_true rfl (complete_cons_close_zero isClose tokens)
    | succ blocks =>
        rw [complete_cons_close isClose, ← later]
        rfl
  · have terminated : ¬Unterminated source token := by
      refine not_unterminated_of_ne_string ?_
      rintro text isString
      rw [isString] at isSymbol
      cases isSymbol
    exact closes_plain (plain_of_symbol? isSymbol isOpen isClose) isOpen isClose terminated later
      blocks

/-- The second speech balloon of a string brings the check back to code. -/
theorem closes_endedString
    {source : String}
    {token : Token}
    {content : List Cluster}
    {rest : List Char}
    {tokens : List Token}
    (isString : token.kind = .string (Cluster.join content))
    (slice : token.span.slice source =
      Cluster.join (Symbol.speech :: (content ++ [Symbol.speech])))
    (clear : lead Symbol.speech ∉ content.flatten)
    (later : ∀ blocks, closes .code blocks rest = true ↔ Complete source blocks tokens)
    (blocks : Nat) :
    closes .code blocks ((Symbol.speech :: (content ++ [Symbol.speech])).flatten ++ rest) = true ↔
      Complete source blocks (token :: tokens) := by
  have terminated : ¬Unterminated source token := by
    rintro ⟨text, isText, opens⟩
    rw [isString] at isText
    cases isText
    have sizes := congrArg String.length (slice.symm.trans opens)
    simp [Cluster.join, Symbol.speech] at sizes
  have whole : (Symbol.speech :: (content ++ [Symbol.speech])).flatten ++ rest =
      (Symbol.speech :: content).flatten ++ (Symbol.speech ++ rest) := by
    simp
  have ends : closes .string blocks (Symbol.speech ++ rest) = closes .code blocks rest := rfl
  rw [whole, closes_string clear, ends, later,
    complete_cons_of_ne (by simp [isString]) (by simp [isString])]
  simp [terminated, Complete]

/-- The check takes a token off the front of an input as the tokens say. -/
theorem closes_token
    {source : String}
    {token : Token}
    {spelling rest : List Cluster}
    {tokens : List Token}
    (spells : Spells (rest = []) token.kind spelling)
    (slice : token.span.slice source = Cluster.join spelling)
    (clear : Clear token.kind)
    (last : rest = [] → ∃ offset position, tokens = [.endOfInput offset position])
    (later : ∀ blocks, closes .code blocks rest.flatten = true ↔ Complete source blocks tokens)
    (blocks : Nat) :
    closes .code blocks (spelling.flatten ++ rest.flatten) = true ↔
      Complete source blocks (token :: tokens) := by
  generalize isKind : token.kind = kind at spells clear
  cases spells with
  | symbol isSymbol => exact closes_symbol (isKind ▸ isSymbol) later blocks
  | name continues =>
      refine closes_plain ?_ (by simp [isKind]) (by simp [isKind])
        (not_unterminated_of_ne_string (by simp [isKind])) later blocks
      simpa [Clear, Cluster.join] using clear
  | @number first others isDigit shown =>
      refine closes_plain (plain_of_numerals ?_) (by simp [isKind]) (by simp [isKind])
        (not_unterminated_of_ne_string (by simp [isKind])) later blocks
      exact List.forall_mem_cons.mpr ⟨.inl isDigit, shown⟩
  | @string content inside =>
      exact closes_endedString isKind slice (by simpa [Clear, Cluster.join] using clear) later
        blocks
  | @openString content isEnd inside =>
      -- The string runs to the end of the input, so nothing but the end is left to be read.
      subst isEnd
      obtain ⟨offset, position, rfl⟩ := last rfl
      have isOpen : Unterminated source token :=
        ⟨_, isKind, by rw [slice]; simp [Cluster.join]⟩
      rw [closes_string (by simpa [Clear, Cluster.join] using clear)]
      refine iff_of_false ?_ (not_complete_of_unterminated isOpen blocks offset position)
      simp [closes]

/-- The check takes what is left of a source as the tokens that cover it say. -/
theorem closes_covered
    {source : String}
    {offset : Nat}
    {run : List Cluster}
    {tokens : List Token}
    (covers : Covers offset run tokens)
    (before : List Cluster)
    (whole : Text.clusters source.toList = before ++ run)
    (starts : offset = Scan.byteSize before)
    (clear : ∀ token ∈ tokens, Clear token.kind)
    (blocks : Nat) :
    closes .code blocks run.flatten = true ↔ Complete source blocks tokens := by
  have lines : ∀ cluster ∈ run, EndsLine cluster := by
    intro cluster present
    have inSource : cluster ∈ Text.clusters source.toList := by
      rw [whole]
      exact List.mem_append_right before present
    exact Text.eq_concat_lineFeed_of_mem_clusters inSource
  induction covers generalizing before blocks with
  | @last offset skipped position gap =>
      have passed := closes_gap gap lines [] (fun _ => rfl) blocks
      rw [List.append_nil] at passed
      rw [passed, complete_end]
      simp [closes]
  | @next offset skipped spelling rest kind position tokens gap nonempty spells covers
      inductionHypothesis =>
      subst starts
      rw [List.forall_mem_append, List.forall_mem_append] at lines
      obtain ⟨gapLines, -, restLines⟩ := lines
      obtain ⟨clearHere, clearLater⟩ := List.forall_mem_cons.mp clear
      have holds := Span.holds_of_cut source (before ++ skipped) spelling rest (by simp [whole])
      simp only [Scan.byteSize_append] at holds
      have later := inductionHypothesis (before ++ skipped ++ spelling) (by simp [whole])
        (by rw [Scan.byteSize_append, Scan.byteSize_append]) clearLater
      rw [List.flatten_append, List.flatten_append, closes_gap gap gapLines _ False.elim]
      refine closes_token spells holds.slice_eq clearHere ?_ (later · restLines) blocks
      rintro rfl
      exact ⟨_, covers.eq_last⟩

/-- Where no name and no string holds a symbol that the check stops at, the check holds an input
complete just when its tokens are: a block is closed where none is open, or all blocks are closed
and all strings ended. -/
theorem isBalanced_iff_complete
    (input : String)
    (clear : ∀ token ∈ tokenize input, Clear token.kind) :
    isBalanced input = true ↔ Complete input 0 (tokenize input) := by
  obtain ⟨tokens, made, covers⟩ := Scan.tokensFrom_covers (.ofText input) #[]
  have all : tokenize input = tokens := by simp [tokenize, made]
  rw [all] at clear ⊢
  have whole : input.toList = (Text.clusters input.toList).flatten := by
    rw [Text.flatten_clusters]
  rw [isBalanced, whole]
  exact closes_covered covers [] rfl rfl clear 0

/-- A block end in a string, and one in a comment, end no block. -/
theorem isBalanced_iff_complete_quoted :
    (∀ token ∈ tokenize "🔜💬🔚💬🪧🔚\n", Clear token.kind) ∧
      ¬Complete "🔜💬🔚💬🪧🔚\n" 0 (tokenize "🔜💬🔚💬🪧🔚\n") := by
  have tokens : tokenize "🔜💬🔚💬🪧🔚\n" = [⟨.blockOpen, ⟨0, 4⟩, ⟨1, 1⟩⟩,
      ⟨.string "🔚", ⟨4, 16⟩, ⟨1, 2⟩⟩, .endOfInput 25 ⟨2, 1⟩] :=
    Scan.tokenize_of_yields (by decide +kernel)
  have clear : ∀ token ∈ tokenize "🔜💬🔚💬🪧🔚\n", Clear token.kind := by
    rw [tokens]
    simp [Clear, Token.endOfInput, lead, Symbol.speech]
  exact ⟨clear, mt (isBalanced_iff_complete _ clear).mpr (by decide)⟩

/-- The check takes the symbol in the name `🔜️` for the start of a block, and holds a
declaration of the name for incomplete. -/
theorem not_isBalanced_marked_name :
    isBalanced "🔖🔜\uFE0F🫵1\uFE0F\u20E3⛔\uFE0F" = false ∧
      Complete "🔖🔜\uFE0F🫵1\uFE0F\u20E3⛔\uFE0F" 0
        (tokenize "🔖🔜\uFE0F🫵1\uFE0F\u20E3⛔\uFE0F") := by
  have tokens : tokenize "🔖🔜\uFE0F🫵1\uFE0F\u20E3⛔\uFE0F" = [⟨.declareWord, ⟨0, 4⟩, ⟨1, 1⟩⟩,
      ⟨.identifier "🔜\uFE0F", ⟨4, 11⟩, ⟨1, 2⟩⟩, ⟨.assign, ⟨11, 15⟩, ⟨1, 3⟩⟩,
      ⟨.number "1", ⟨15, 22⟩, ⟨1, 4⟩⟩, ⟨.stop, ⟨22, 28⟩, ⟨1, 5⟩⟩, .endOfInput 28 ⟨1, 6⟩] :=
    Scan.tokenize_of_yields (by decide +kernel)
  refine ⟨by decide, .inr ?_⟩
  rw [tokens]
  simp [Token.endOfInput, Unterminated]

end Shell
end Pictogram
