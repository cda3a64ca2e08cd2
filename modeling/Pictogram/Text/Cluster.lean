import Pictogram.Text.BreakTable

/-!
# Extended grapheme clusters

A text is read one cluster at a time: what a reader takes for one character,
however many code points it is made of.  `Text.clusters` cuts a text by the
rules for extended grapheme clusters of Unicode 17.0, among them the rule for
Indic conjuncts.

A rule looks back at most to the start of the cluster it is asked about, so
the whole state of the reading is a `Trail`: what the characters of the open
cluster have left behind.  A break forgets it.
-/

namespace Pictogram

/-- One extended grapheme cluster: the characters it is made of. -/
abbrev Cluster := List Char

namespace Text

/-- The part a character plays in the joining of clusters. -/
inductive BreakClass where
  | other
  | carriageReturn
  | lineFeed
  | control
  | extending
  | joiner
  | regional
  | prepended
  | spacing
  | leading
  | vowel
  | trailing
  | openSyllable
  | closedSyllable
  deriving DecidableEq, Repr

namespace BreakClass

/-- Precomposed Hangul syllables: 28 in a row share consonant and vowel, and
the first of them has no trailing consonant. -/
def ofSyllable (code : Nat) : BreakClass :=
  if (code - 0xAC00) % 28 = 0 then .openSyllable else .closedSyllable

/-- The class of a character. -/
def ofChar (c : Char) : BreakClass :=
  let code := c.toNat
  if code = 0xD then .carriageReturn
  else if code = 0xA then .lineFeed
  else if 0x20 ≤ code && code < 0x7F then .other
  else if code = 0x200D then .joiner
  else if 0xAC00 ≤ code && code ≤ 0xD7A3 then ofSyllable code
  else if BreakTable.extending.contains code then .extending
  else if BreakTable.control.contains code then .control
  else if BreakTable.spacing.contains code then .spacing
  else if BreakTable.regional.contains code then .regional
  else if BreakTable.leading.contains code then .leading
  else if BreakTable.vowel.contains code then .vowel
  else if BreakTable.trailing.contains code then .trailing
  else if BreakTable.prepended.contains code then .prepended
  else .other

/-- Line ends and controls, which nothing joins but a line feed after a
carriage return. -/
def isolated : BreakClass → Bool
  | .carriageReturn | .lineFeed | .control => true
  | _ => false

/-- Joining within a Hangul syllable block. -/
def joinsSyllable : BreakClass → BreakClass → Bool
  | .leading, .leading | .leading, .vowel => true
  | .leading, .openSyllable | .leading, .closedSyllable => true
  | .openSyllable, .vowel | .vowel, .vowel => true
  | .openSyllable, .trailing | .vowel, .trailing => true
  | .closedSyllable, .trailing | .trailing, .trailing => true
  | _, _ => false

end BreakClass

/-- Whether a pictograph may join a joined sequence of pictographs. -/
def isPictographic (c : Char) : Bool :=
  0x7F < c.toNat && BreakTable.pictographic.contains c.toNat

/-- Whether the character is a consonant of the conjunct rule. -/
def isConsonant (c : Char) : Bool :=
  0x7F < c.toNat && BreakTable.consonant.contains c.toNat

/-- Whether the character links two consonants. -/
def isLinker (c : Char) : Bool :=
  0x7F < c.toNat && BreakTable.linker.contains c.toNat

/-- How far the open cluster has come towards joining another pictograph. -/
inductive PictographTrail where
  /-- It does not end in a pictograph and what extends it. -/
  | absent
  /-- It ends in a pictograph and extending marks. -/
  | pictograph
  /-- It ends in a pictograph, extending marks and a joiner. -/
  | joined
  deriving DecidableEq, Repr

/-- How far the open cluster has come towards joining another consonant. -/
inductive ConjunctTrail where
  /-- It does not end in a consonant and what extends it. -/
  | absent
  /-- It ends in a consonant and extending marks that do not link. -/
  | consonant
  /-- It ends in a consonant and extending marks, one of them a linker. -/
  | linked
  deriving DecidableEq, Repr

/-- What the characters of the open cluster leave behind for the rules. -/
structure Trail where
  /-- The class of the last character. -/
  last : BreakClass
  /-- Progress towards a joined pictograph. -/
  pictograph : PictographTrail
  /-- Progress towards a linked consonant. -/
  conjunct : ConjunctTrail
  /-- Whether the cluster ends in an odd number of regional indicators. -/
  oddRegional : Bool
  deriving DecidableEq, Repr

namespace Trail

/-- The trail after a pictograph, an extending mark, a joiner or anything else. -/
def nextPictograph (trail : PictographTrail) (c : Char) (kind : BreakClass) : PictographTrail :=
  if isPictographic c then .pictograph
  else match kind, trail with
    | .extending, .pictograph => .pictograph
    | .joiner, .pictograph => .joined
    | _, _ => .absent

/-- The trail after a consonant, a linker, an extending mark or anything else.
The zero width non-joiner is extending but ends a conjunct. -/
def nextConjunct (trail : ConjunctTrail) (c : Char) (kind : BreakClass) : ConjunctTrail :=
  if isConsonant c then .consonant
  else match trail with
    | .absent => .absent
    | begun =>
      if isLinker c then .linked
      else if kind = .joiner || (kind = .extending && c.toNat ≠ 0x200C) then begun
      else .absent

/-- The trail of a cluster that begins with the character. -/
def start (c : Char) : Trail where
  last := .ofChar c
  pictograph := nextPictograph .absent c (.ofChar c)
  conjunct := nextConjunct .absent c (.ofChar c)
  oddRegional := BreakClass.ofChar c = .regional

/-- The trail once the character has joined the cluster. -/
def push (trail : Trail) (c : Char) : Trail where
  last := .ofChar c
  pictograph := nextPictograph trail.pictograph c (.ofChar c)
  conjunct := nextConjunct trail.conjunct c (.ofChar c)
  oddRegional := BreakClass.ofChar c = .regional && !trail.oddRegional

/-- Whether the character joins the open cluster. -/
def joins (trail : Trail) (c : Char) : Bool :=
  let kind := BreakClass.ofChar c
  if trail.last = .carriageReturn && kind = .lineFeed then true
  else if trail.last.isolated || kind.isolated then false
  else if kind = .extending || kind = .joiner || kind = .spacing then true
  else if trail.last = .prepended then true
  else if trail.last.joinsSyllable kind then true
  else if trail.conjunct = .linked && isConsonant c then true
  else if trail.pictograph = .joined && isPictographic c then true
  else trail.oddRegional && kind = .regional

end Trail

/--
The clusters of a text of which one cluster is still open: `done` are the
clusters before it, the last one first, and `current` its characters, the last
one first.
-/
def segment
    (done : List Cluster)
    (current : List Char)
    (trail : Trail) : List Char → List Cluster
  | [] => (current.reverse :: done).reverse
  | c :: rest =>
    if trail.joins c then segment done (c :: current) (trail.push c) rest
    else segment (current.reverse :: done) [c] (.start c) rest

/-- The extended grapheme clusters of a text. -/
def clusters : List Char → List Cluster
  | [] => []
  | c :: rest => segment [] [c] (.start c) rest

@[simp] theorem clusters_nil : clusters [] = [] := rfl

/-- Cutting loses nothing: the clusters of the whole, in order, are the text. -/
theorem flatten_segment
    (done : List Cluster)
    (current : List Char)
    (trail : Trail)
    (rest : List Char) :
    (segment done current trail rest).flatten =
      done.reverse.flatten ++ current.reverse ++ rest := by
  induction rest generalizing done current trail with
  | nil => simp [segment]
  | cons c rest inductionHypothesis =>
    unfold segment
    split <;> simp [inductionHypothesis]

@[simp] theorem flatten_clusters (text : List Char) : (clusters text).flatten = text := by
  cases text with
  | nil => rfl
  | cons c rest => simp [clusters, flatten_segment]

end Text

namespace Cluster

/-- The number of bytes of the characters in UTF-8. -/
def byteSize (cluster : Cluster) : Nat :=
  cluster.foldl (fun total c => total + c.utf8Size) 0

/-- Whether the cluster ends a line. -/
def isNewline (cluster : Cluster) : Bool :=
  cluster.contains '\n'

end Cluster

end Pictogram
