import CompileFlags.Pattern.Basic

/-!
# Matching

Where a pattern matches in a text. The spots of a text are the places before its first character,
between two and after its last. To match, the signs of a pattern are written out, each round of a
repetition on its own, and every sign keeps a mark that tells whether a match has just taken a
character by it. One character after the other moves the marks on, so a text takes time in
proportion to its length. Parts without a mark that no match enters are passed over.

* `Progress` is a pattern written out, with its marks.
* `Progress.advance` moves the marks over a character.
* `isMatch` asks for any match at all.
-/

namespace CompileFlags.Pattern

/-- The characters on the two sides of a spot. -/
structure Spot where
  before : Option Char
  after : Option Char
  deriving DecidableEq, Repr

/-- Whether a character is part of a word, for assertions: an ASCII letter or digit, or `_`. -/
def isWordChar (c : Char) : Bool := c.isAlphanum || c == '_'

/-- Whether an assertion holds at a spot. -/
def Look.holds (l : Look) (s : Spot) : Bool :=
  let wordBefore := s.before.any isWordChar
  let wordAfter := s.after.any isWordChar
  match l with
  | start => s.before.isNone
  | finish => s.after.isNone
  | lineStart => s.before.isNone || s.before == some '\n'
  | lineFinish => s.after.isNone || s.after == some '\n'
  | lineStartReturn =>
    s.before.isNone || s.before == some '\n' || (s.before == some '\r' && s.after != some '\n')
  | lineFinishReturn =>
    s.after.isNone || s.after == some '\r' || (s.after == some '\n' && s.before != some '\r')
  | boundary => wordBefore != wordAfter
  | notBoundary => wordBefore == wordAfter
  | wordStart => !wordBefore && wordAfter
  | wordFinish => wordBefore && !wordAfter
  | wordStartHalf => !wordBefore
  | wordFinishHalf => !wordAfter

/-- A pattern written out, while a text is read. Where parts are put together, `marked` says whether
any sign in them has a mark. -/
inductive Progress where
  | empty
  /-- A sign that takes a character, and whether a match has just taken one by it. -/
  | sign (set : CharSet) (marked : Bool)
  | look (l : Look)
  | sequence (marked : Bool) (first second : Progress)
  | choice (marked : Bool) (first second : Progress)
  /-- The same pattern once or more often. -/
  | again (marked : Bool) (sub : Progress)
  deriving DecidableEq, Repr

namespace Progress

/-- Whether any sign has a mark. -/
def isMarked : Progress → Bool
  | empty | look _ => false
  | sign _ marked | sequence marked _ _ | choice marked _ _ | again marked _ => marked

/-- One pattern and then another. -/
def andThen (p q : Progress) : Progress := sequence (p.isMarked || q.isMarked) p q

/-- One pattern or another. -/
def orElse (p q : Progress) : Progress := choice (p.isMarked || q.isMarked) p q

/-- A pattern once or more often. -/
def repeated (p : Progress) : Progress := again p.isMarked p

/-- A pattern or nothing. -/
def optional (p : Progress) : Progress := p.orElse empty

/-- So many copies of a pattern, and then another. -/
def copies (p : Progress) : Nat → Progress → Progress
  | 0, next => next
  | n + 1, next => p.andThen (copies p n next)

/-- A pattern written out without a mark. More than `most` copies of a repetition are left out: in a
text with fewer spots than that, a match through so many rounds makes one of them on the spot, and
it can make that one as often as it likes. -/
def ofPattern (most : Nat) : Pattern → Progress
  | .empty => empty
  | .char c => sign (.single c) false
  | .oneOf set => sign set false
  | .look l => look l
  | .repetition 0 none sub => (ofPattern most sub).repeated.optional
  | .repetition (min + 1) none sub =>
    let round := ofPattern most sub
    copies round (Nat.min min most) round.repeated
  | .repetition min (some max) sub =>
    let round := ofPattern most sub
    copies round (Nat.min min most) (copies (optional round) (Nat.min (max - min) most) empty)
  | .group _ _ sub => ofPattern most sub
  | .sequence subs => inSequence subs
  | .choice subs => anyOf subs
where
  /-- One pattern after the other. -/
  inSequence : List Pattern → Progress
    | [] => empty
    | p :: ps => (ofPattern most p).andThen (inSequence ps)
  /-- Any of the patterns. -/
  anyOf : List Pattern → Progress
    | [] => sign .empty false
    | p :: ps => (ofPattern most p).orElse (anyOf ps)

/-- Whether a match can go through a whole pattern at a spot, without a character. -/
def passes (s : Spot) : Progress → Bool
  | empty => true
  | sign _ _ => false
  | look l => l.holds s
  | sequence _ p q => p.passes s && q.passes s
  | choice _ p q => p.passes s || q.passes s
  | again _ p => p.passes s

/-- What can come to the end of a pattern at a spot. -/
structure Ends where
  /-- A match that has not taken a character in the pattern yet. -/
  passed : Bool
  /-- A match that has just taken a character by a marked sign. -/
  finished : Bool

/-- What can come to the end of a pattern at a spot. -/
def ends (s : Spot) (whole : Progress) : Ends :=
  if whole.isMarked then
    match whole with
    | empty => ⟨true, false⟩
    | sign _ marked => ⟨false, marked⟩
    | look l => ⟨l.holds s, false⟩
    | sequence _ p q =>
      let first := p.ends s
      let second := q.ends s
      ⟨first.passed && second.passed, second.finished || (second.passed && first.finished)⟩
    | choice _ p q =>
      let first := p.ends s
      let second := q.ends s
      ⟨first.passed || second.passed, first.finished || second.finished⟩
    | again _ p => p.ends s
  else ⟨whole.passes s, false⟩

/-- The marks after a character that follows a spot. With `entered`, a match may also come from
before the pattern. -/
def advance (s : Spot) (c : Char) (entered : Bool) (whole : Progress) : Progress :=
  if entered || whole.isMarked then
    match whole with
    | empty => empty
    | sign set _ => sign set (entered && set.contains c)
    | look l => look l
    | sequence _ p q =>
      let first := p.ends s
      (p.advance s c entered).andThen
        (q.advance s c ((entered && first.passed) || first.finished))
    | choice _ p q => (p.advance s c entered).orElse (q.advance s c entered)
    | again _ p => (p.advance s c (entered || (p.ends s).finished)).repeated
  else whole

end Progress

/-- Whether a match ends in what is left of a text. A match may begin at every spot. -/
def matchesFrom (before : Option Char) (p : Progress) : List Char → Bool
  | [] =>
    let ends := p.ends ⟨before, none⟩
    ends.passed || ends.finished
  | c :: rest =>
    let s : Spot := ⟨before, some c⟩
    let ends := p.ends s
    ends.passed || ends.finished || matchesFrom (some c) (p.advance s c true) rest

/-- Whether a pattern matches somewhere in a text. -/
def isMatch (p : Pattern) (text : String) : Bool :=
  let cs := text.toList
  matchesFrom none (.ofPattern (cs.length + 1) p) cs

end CompileFlags.Pattern
