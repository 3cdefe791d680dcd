import CompileFlags.Pattern.Error
import CompileFlags.Pattern.Weight
import CompileFlags.Text.Character
import CompileFlags.Text.Letters

/-!
# Reading patterns

The notation of patterns. `Pattern.parse` gives the pattern that a text writes, or the first reason
why it writes none.

The readers below work on what is left of the text. In the verbose mode blanks and comments between
the signs of a pattern are skipped; `skip` does that, and nothing in any other mode.
-/

namespace CompileFlags.Pattern

/-- The modes that a pattern switches for parts of itself. -/
structure Modes where
  ignoreCase : Bool := false
  multiLine : Bool := false
  dotAll : Bool := false
  returns : Bool := false
  verbose : Bool := false
  deriving DecidableEq, Repr

/-! ## Blanks and comments -/

/-- Skips blanks and comments; `inComment` says that a comment has begun. -/
def skipFrom (inComment : Bool) : List Char → List Char
  | [] => []
  | c :: rest =>
    if inComment then skipFrom (c != '\n') rest
    else if Text.isBlank c then skipFrom false rest
    else if c == '#' then skipFrom true rest
    else c :: rest

/-- Skips what the mode lets one skip. -/
def skip (m : Modes) (cs : List Char) : List Char := if m.verbose then skipFrom false cs else cs

theorem length_skipFrom_le (inComment : Bool) (cs : List Char) :
    (skipFrom inComment cs).length ≤ cs.length := by
  induction cs generalizing inComment with
  | nil => simp [skipFrom]
  | cons c rest ih =>
    simp only [skipFrom]
    split
    · have := ih (c != '\n'); simp; omega
    · split
      · have := ih false; simp; omega
      · split
        · have := ih true; simp; omega
        · simp

theorem length_skip_lt (m : Modes) (c : Char) (rest : List Char) :
    (skip m rest).length < (c :: rest).length := by
  unfold skip
  split
  · have := length_skipFrom_le false rest; simp; omega
  · simp

/-- The sign after the next one in a character class. The start of a comment is stepped over, but
not what the comment says; if there is no sign at all, it is the very next character. -/
def lookPast (m : Modes) (rest : List Char) : Option Char :=
  if m.verbose then
    let visible := match rest.dropWhile Text.isBlank with
      | '#' :: comment => comment.dropWhile Text.isBlank
      | cs => cs
    visible.head?.or rest.head?
  else rest.head?

/-! ## Numbers -/

/-- So many hexadecimal digits. -/
def hexFixed (m : Modes) : Nat → Nat → List Char → Except Error (Nat × List Char)
  | 0, value, cs => .ok (value, cs)
  | _ + 1, _, [] => .error .hexFixedCut
  | n + 1, value, c :: rest =>
    match Text.hexValue? c with
    | none => .error .hexFixedNoHexDigit
    | some d => hexFixed m n (value * 16 + d) (skip m rest)

/-- Hexadecimal digits up to a closing brace; `none` if there are none. -/
def hexBraced (m : Modes) (value : Option Nat) (cs : List Char) :
    Except Error (Option Nat × List Char) :=
  match cs with
  | [] => .error .hexBraceCut
  | c :: rest =>
    if c = '}' then .ok (value, skip m rest)
    else
      match Text.hexValue? c with
      | none => .error .hexBraceNoHexDigit
      | some d => hexBraced m (some (value.getD 0 * 16 + d)) (skip m rest)
termination_by cs.length
decreasing_by exact length_skip_lt m c rest

/-- The character that an escape with so many hexadecimal digits, or with a number in braces,
stands for. -/
def hexEscape (m : Modes) (digits : Nat) (cs : List Char) : Except Error (Char × List Char) :=
  match cs with
  | [] => .error .hexCut
  | '{' :: rest => do
    let (value, rest) ← hexBraced m none (skip m rest)
    match value with
    | none => .error .hexBraceEmpty
    | some n =>
      match Text.charOfNat? n with
      | none => .error .hexBraceNoCharacter
      | some c => .ok (c, rest)
  | cs => do
    let (n, rest) ← hexFixed m digits 0 cs
    match Text.charOfNat? n with
    | none => .error .hexFixedNoCharacter
    | some c => .ok (c, rest)

/-- The decimal digits at the front, with what may be skipped after each. -/
def decimalDigits (m : Modes) (value : Option Nat) (cs : List Char) : Option Nat × List Char :=
  match cs with
  | [] => (value, [])
  | c :: rest =>
    if c.isDigit then
      decimalDigits m (some (value.getD 0 * 10 + (c.toNat - '0'.toNat))) (skip m rest)
    else (value, c :: rest)
termination_by cs.length
decreasing_by exact length_skip_lt m c rest

/-- What is left after blanks, with what may be skipped after each. -/
def dropBlanks (m : Modes) (cs : List Char) : List Char :=
  match cs with
  | [] => []
  | c :: rest => if Text.isBlank c then dropBlanks m (skip m rest) else c :: rest
termination_by cs.length
decreasing_by exact length_skip_lt m c rest

/-- A decimal number below 2^32 with blanks around it. -/
def decimal (m : Modes) (cs : List Char) : Except Error (Nat × List Char) :=
  let (value, rest) := decimalDigits m none (cs.dropWhile Text.isBlank)
  let rest := dropBlanks m rest
  match value with
  | none => .error .decimalMissing
  | some n => if n < Nat.pow 2 32 then .ok (n, rest) else .error .decimalTooLarge

/-! ## Single characters and assertions -/

/-- A character that stands for itself, in either case if the mode says so. -/
def literal (m : Modes) (c : Char) : Pattern :=
  if m.ignoreCase && c.isAlpha then oneOf (CharSet.single c).folded else char c

/-- Any character, or any but the ends of lines. -/
def anyChar (m : Modes) : Pattern :=
  if m.dotAll then oneOf CharSet.empty.complement
  else if m.returns then oneOf (CharSet.ofRanges [('\n', '\n'), ('\r', '\r')]).complement
  else oneOf (CharSet.single '\n').complement

/-- The assertion of `^`. -/
def startLook (m : Modes) : Look :=
  if m.multiLine then (if m.returns then .lineStartReturn else .lineStart) else .start

/-- The assertion of `$`. -/
def finishLook (m : Modes) : Look :=
  if m.multiLine then (if m.returns then .lineFinishReturn else .lineFinish) else .finish

/-- ASCII digits. -/
def digits : CharSet := .range '0' '9'

/-- ASCII blanks. -/
def blanks : CharSet := .ofRanges [('\t', '\r'), (' ', ' ')]

/-- ASCII letters, digits and the underscore. -/
def wordChars : CharSet := .ofRanges [('0', '9'), ('A', 'Z'), ('_', '_'), ('a', 'z')]

/-- The set of a one-letter escape. -/
def classEscape? : Char → Option CharSet
  | 'd' => some digits
  | 'D' => some digits.complement
  | 's' => some blanks
  | 'S' => some blanks.complement
  | 'w' => some wordChars
  | 'W' => some wordChars.complement
  | _ => none

/-- The character of a one-letter escape. -/
def charEscape? : Char → Option Char
  | 'a' => some '\x07'
  | 'f' => some '\x0C'
  | 't' => some '\t'
  | 'n' => some '\n'
  | 'r' => some '\r'
  | 'v' => some '\x0B'
  | _ => none

/-- The assertion of a one-letter escape. -/
def lookEscape? : Char → Option Look
  | 'A' => some .start
  | 'z' => some .finish
  | 'b' => some .boundary
  | 'B' => some .notBoundary
  | '<' => some .wordStart
  | '>' => some .wordFinish
  | _ => none

/-- Whether a backslash makes a character stand for itself: any ASCII character but letters, digits
and the two signs of word assertions. -/
def isEscapable (c : Char) : Bool :=
  c.toNat < 0x80 && !c.isAlphanum && c != '<' && c != '>'

/-- The assertions with a name in braces. -/
def boundaryNamed? : String → Option Look
  | "start" => some .wordStart
  | "end" => some .wordFinish
  | "start-half" => some .wordStartHalf
  | "end-half" => some .wordFinishHalf
  | _ => none

/-- The letters and dashes at the front, with what may be skipped after each. -/
def boundaryName (m : Modes) (cs : List Char) : List Char × List Char :=
  match cs with
  | [] => ([], [])
  | c :: rest =>
    if c.isAlpha || c == '-' then
      let (name, rest) := boundaryName m (skip m rest)
      (c :: name, rest)
    else ([], c :: rest)
termination_by cs.length
decreasing_by exact length_skip_lt m c rest

/-- After a word boundary: the assertion that a name in braces turns it into. A brace that opens no
name is left for a counted repetition. -/
def boundaryEscape (m : Modes) (cs : List Char) : Except Error (Look × List Char) :=
  match cs with
  | '{' :: rest =>
    match skip m rest with
    | [] => .error .boundaryCut
    | c :: inside =>
      if c.isAlpha || c == '-' then
        let (name, rest) := boundaryName m (c :: inside)
        match rest with
        | '}' :: rest =>
          match boundaryNamed? (.ofList name) with
          | some l => .ok (l, rest)
          | none => .error .boundaryUnknown
        | _ => .error .boundaryUnclosed
      else .ok (.boundary, cs)
  | _ => .ok (.boundary, cs)

/-- What a backslash and the characters after it stand for. -/
def escape (m : Modes) : List Char → Except Error (Pattern × List Char)
  | [] => .error .escapeCut
  | c :: rest =>
    if c.isDigit then .error .backreference
    else if c = 'p' ∨ c = 'P' then .error .unicodeClass
    else if c = 'x' then hex 2 rest
    else if c = 'u' then hex 4 rest
    else if c = 'U' then hex 8 rest
    else
      match classEscape? c with
      | some set => .ok (oneOf set, rest)
      | none =>
        if isEscapable c then .ok (literal m c, rest)
        else
          match charEscape? c, lookEscape? c with
          | some d, _ => .ok (literal m d, rest)
          | none, some .boundary => do
            let (l, rest) ← boundaryEscape m rest
            .ok (look l, rest)
          | none, some l => .ok (look l, rest)
          | none, none => .error .escapeUnknown
where
  /-- An escape with so many hexadecimal digits. -/
  hex (digits : Nat) (rest : List Char) : Except Error (Pattern × List Char) := do
    let (c, rest) ← hexEscape m digits (skip m rest)
    .ok (literal m c, rest)

/-! ## Character classes -/

/-- The sets with a name between colons. -/
def classNamed? : String → Option CharSet
  | "alnum" => some (.ofRanges [('0', '9'), ('A', 'Z'), ('a', 'z')])
  | "alpha" => some (.ofRanges [('A', 'Z'), ('a', 'z')])
  | "ascii" => some (.range '\x00' '\x7F')
  | "blank" => some (.ofRanges [('\t', '\t'), (' ', ' ')])
  | "cntrl" => some (.ofRanges [('\x00', '\x1F'), ('\x7F', '\x7F')])
  | "digit" => some digits
  | "graph" => some (.range '!' '~')
  | "lower" => some (.range 'a' 'z')
  | "print" => some (.range ' ' '~')
  | "punct" => some (.ofRanges [('!', '/'), (':', '@'), ('[', '\x60'), ('\x7B', '~')])
  | "space" => some blanks
  | "upper" => some (.range 'A' 'Z')
  | "word" => some wordChars
  | "xdigit" => some (.ofRanges [('0', '9'), ('A', 'F'), ('a', 'f')])
  | _ => none

/-- After an opening bracket: a named set up to `:]`, if there is one. -/
def namedClass? : List Char → Option (CharSet × List Char)
  | ':' :: rest =>
    let (negated, rest) := match rest with
      | '^' :: rest => (true, rest)
      | rest => (false, rest)
    match rest.dropWhile (· != ':') with
    | ':' :: ']' :: after =>
      (classNamed? (.ofList (rest.takeWhile (· != ':')))).map fun set =>
        (if negated then set.complement else set, after)
    | _ => none
  | _ => none

/-- A character or an escape in a class. -/
def classItem (m : Modes) : List Char → Except Error (Pattern × List Char)
  | [] => .error .classUnclosed
  | '\\' :: rest => escape m rest
  | c :: rest => .ok (char c, rest)

/-- The set that an item adds to a class. -/
def itemSet : Pattern → Except Error CharSet
  | char c => .ok (.single c)
  | oneOf set => .ok set
  | _ => .error .classItemInvalid

/-- The character that an item is at an end of a range. -/
def itemChar : Pattern → Except Error Char
  | char c => .ok c
  | _ => .error .rangeEndNoCharacter

/-- An item or a range of characters in a class. A dash makes a range unless a closing bracket or
another dash comes next. -/
def classRange (m : Modes) (cs : List Char) : Except Error (CharSet × List Char) := do
  let (first, rest) ← classItem m cs
  match skip m rest with
  | [] => .error .classUnclosedAfterItem
  | '-' :: after =>
    if lookPast m after = some ']' ∨ lookPast m after = some '-' then
      .ok (← itemSet first, '-' :: after)
    else
      match skip m after with
      | [] => .error .classUnclosedAfterDash
      | next => do
        let (last, rest) ← classItem m next
        let low ← itemChar first
        let high ← itemChar last
        if high < low then .error .rangeReversed
        else .ok (.range low high, rest)
  | rest => .ok (← itemSet first, rest)

/-- The items of a class up to its closing bracket, and what follows that. Every round takes at
least one character, so `rounds` never runs out if there are as many as characters. -/
def classItems (m : Modes) : Nat → CharSet → List Char → Except Error (CharSet × List Char)
  | 0, _, _ => .error .classUnclosed
  | rounds + 1, set, cs =>
    match skip m cs with
    | [] => .error .classUnclosed
    | '[' :: rest =>
      match namedClass? rest with
      | some (named, rest) => classItems m rounds (set.union named) rest
      | none => .error .classNested
    | ']' :: rest => .ok (set, rest)
    | '&' :: '&' :: _ => .error .classIntersection
    | '-' :: '-' :: _ => .error .classDifference
    | '~' :: '~' :: _ => .error .classSymmetricDifference
    | cs => do
      let (item, rest) ← classRange m cs
      classItems m rounds (set.union item) rest

/-- The dashes at the start of a class, which stand for themselves. -/
def leadingDashes (m : Modes) (dashes : Bool) (cs : List Char) : Except Error (Bool × List Char) :=
  match cs with
  | '-' :: rest =>
    if (skip m rest).isEmpty then .error .classUnclosedAfterDash
    else leadingDashes m true (skip m rest)
  | cs => .ok (dashes, cs)
termination_by cs.length
decreasing_by exact length_skip_lt m '-' rest

/-- A character class after its opening bracket. A closing bracket right at the start stands for
itself. -/
def characterClass (m : Modes) (cs : List Char) : Except Error (Pattern × List Char) := do
  let cs := skip m cs
  if cs.isEmpty then .error .classUnclosed
  else
    let (negated, cs) := match cs with
      | '^' :: rest => (true, skip m rest)
      | cs => (false, cs)
    if cs.isEmpty then .error .classUnclosedAfterNegation
    else
      let (dashes, cs) ← leadingDashes m false cs
      let set := if dashes then CharSet.single '-' else .empty
      let (set, cs) ← match dashes, cs with
        | false, ']' :: rest =>
          if (skip m rest).isEmpty then Except.error .classUnclosedAfterBracket
          else Except.ok (.single ']', skip m rest)
        | _, cs => Except.ok (set, cs)
      let (set, rest) ← classItems m (cs.length + 1) set cs
      let set := if m.ignoreCase then set.folded else set
      .ok (oneOf (if negated then set.complement else set), rest)

/-! ## Repetitions -/

/-- After the sign of a repetition, the sign that makes it prefer fewer rounds. It makes no
difference to whether a text matches. -/
def dropLazy : List Char → List Char
  | '?' :: rest => rest
  | cs => cs

/-- A counted repetition after its opening brace: the least and the greatest count. -/
def counts (m : Modes) (cs : List Char) : Except Error ((Nat × Option Nat) × List Char) := do
  let cs := skip m cs
  if cs.isEmpty then .error .countUnclosed
  else
    let (least, cs) ← decimal m cs
    if cs.isEmpty then .error .countMinUnclosed
    else
      let (most, cs) ← match cs with
        | ',' :: rest =>
          match skip m rest with
          | [] => Except.error .countCommaUnclosed
          | '}' :: rest => Except.ok (none, '}' :: rest)
          | rest => do
            let (most, rest) ← decimal m rest
            if rest.isEmpty then Except.error .countMaxUnclosed
            else Except.ok (some most, rest)
        | cs => Except.ok (some least, cs)
      match cs with
      | '}' :: rest =>
        if most.any (· < least) then .error .countReversed
        else .ok ((least, most), dropLazy (skip m rest))
      | _ => .error .countNotClosed

/-! ## Groups and whole patterns -/

/-- What is left to read, the modes it is read in, and the number and the names of the groups that
have begun before it. -/
structure State where
  rest : List Char
  modes : Modes
  groups : Nat
  names : List String

/-- A reader. -/
abbrev Reader := StateT State (Except Error)

/-- A reader of what is left that switches no mode. -/
def inModes {α : Type} (read : Modes → List Char → Except Error (α × List Char)) : Reader α := do
  let s ← get
  let (a, rest) ← read s.modes s.rest
  set { s with rest }
  pure a

/-- How a group begins. -/
inductive Head where
  /-- It only switches modes for what follows it. -/
  | modes
  /-- It captures what it matches. -/
  | capture (number : Nat) (name : Option String)
  /-- It only groups. -/
  | plain

/-- Whether a character can be in the name of a group. -/
def isNameChar (first : Bool) (c : Char) : Bool :=
  if first then c == '_' || Text.isLetter c
  else c == '_' || c == '.' || c == '[' || c == ']' || Text.isWordPart c

/-- The name of a group up to its closing sign. -/
def groupName (first : Bool) : List Char → Except Error (List Char × List Char)
  | [] => .error .groupNameCut
  | c :: rest =>
    if c = '>' then .ok ([], rest)
    else if isNameChar first c then do
      let (name, rest) ← groupName false rest
      .ok (c :: name, rest)
    else .error .groupNameInvalid

/-- Switches the mode of a letter. -/
def Modes.switch (m : Modes) (on : Bool) : Char → Option Modes
  | 'i' => some { m with ignoreCase := on }
  | 'm' => some { m with multiLine := on }
  | 's' => some { m with dotAll := on }
  | 'R' => some { m with returns := on }
  | 'x' => some { m with verbose := on }
  | 'U' | 'u' => some m
  | _ => none

/-- The letters of modes up to the sign that ends them, which stays. A dash makes the letters after
it switch modes off. -/
def modeLetters (negated lastDash : Bool) (seen : List Char) (m : Modes) :
    List Char → Except Error (Modes × List Char)
  | [] => .error .flagsCut
  | c :: rest =>
    if c = ':' ∨ c = ')' then
      if lastDash then .error .flagsEndNegated else .ok (m, c :: rest)
    else if c = '-' then
      if negated then .error .flagNegatedTwice else modeLetters true true seen m rest
    else
      match m.switch (!negated) c with
      | none => .error .flagUnknown
      | some m =>
        if seen.contains c then .error .flagRepeated
        else modeLetters negated false (c :: seen) m rest

/-- Reads the name of a group and takes it for this group alone. -/
def namedHead (s : State) (rest : List Char) : Except Error (Head × State) :=
  if rest.isEmpty then .error .groupNameMissing
  else do
    let (name, rest) ← groupName true rest
    if name.isEmpty then .error .groupNameEmpty
    else
      let name := String.ofList name
      if s.names.contains name then .error .groupNameTaken
      else
        let number := s.groups + 1
        .ok (.capture number (some name),
          { s with rest, groups := number, names := name :: s.names })

/-- The beginning of a group after its opening parenthesis. -/
def groupHead (s : State) : Except Error (Head × State) :=
  match skip s.modes s.rest with
  | '?' :: '=' :: _ | '?' :: '!' :: _ | '?' :: '<' :: '=' :: _ | '?' :: '<' :: '!' :: _ =>
    .error .lookAround
  | '?' :: 'P' :: '<' :: rest => namedHead s rest
  | '?' :: '<' :: rest => namedHead s rest
  | '?' :: rest =>
    if rest.isEmpty then .error .groupCut
    else if rest.head? = some ')' then .error .flagsEmpty
    else do
      let (modes, after) ← modeLetters false false [] s.modes rest
      match after with
      | ':' :: after => .ok (.plain, { s with rest := after, modes })
      | after => .ok (.modes, { s with rest := after, modes })
  | rest =>
    let number := s.groups + 1
    .ok (.capture number none, { s with rest, groups := number })

/-- How deep groups and patterns may be nested. -/
def maxDepth : Nat := 50

/-- The choice between the sequences read so far, all of them last first. -/
def close (choices : List Pattern) (seq : List Pattern) : Pattern :=
  ofChoice ((ofSequence seq.reverse) :: choices).reverse

/-- Applies a repetition to the last pattern of a sequence. -/
def repeatLast (missing : Error) (least : Nat) (most : Option Nat) : List Pattern →
    Except Error (List Pattern)
  | [] => .error missing
  | sub :: seq => .ok (ofRepetition least most sub :: seq)

/-- The patterns up to the end of the text or of the group, `level` groups deep. Every round takes
at least one character, so `rounds` never runs out if there are more of them than characters. -/
def sequences : Nat → Nat → List Pattern → List Pattern → Reader Pattern
  | 0, _, choices, seq => pure (close choices seq)
  | rounds + 1, level, choices, seq => do
    modify fun s => { s with rest := skip s.modes s.rest }
    let s ← get
    let go := fun (rest : List Char) => set { s with rest }
    match s.rest with
    | [] => pure (close choices seq)
    | ')' :: _ => if level = 0 then throw .groupUnopened else pure (close choices seq)
    | '(' :: rest =>
      go rest
      let (head, inner) ← groupHead (← get)
      set inner
      let seq ← match head with
        | .modes => pure seq
        | .plain | .capture _ _ => do
          if maxDepth < level + 1 then throw .tooMuchNesting
          let sub ← sequences rounds (level + 1) [] []
          modify fun t => { t with modes := s.modes }
          match head with
          | .capture number name => pure (group number name sub :: seq)
          | _ => pure (sub :: seq)
      match (← get).rest with
      | ')' :: rest =>
        modify fun t => { t with rest }
        sequences rounds level choices seq
      | _ => throw .groupUnclosed
    | '|' :: rest =>
      go rest
      sequences rounds level (ofSequence seq.reverse :: choices) []
    | '[' :: rest =>
      go rest
      let set ← inModes characterClass
      sequences rounds level choices (set :: seq)
    | '?' :: rest => do
      go (dropLazy rest)
      sequences rounds level choices (← repeatLast .repeatNothing 0 (some 1) seq)
    | '*' :: rest => do
      go (dropLazy rest)
      sequences rounds level choices (← repeatLast .repeatNothing 0 none seq)
    | '+' :: rest => do
      go (dropLazy rest)
      sequences rounds level choices (← repeatLast .repeatNothing 1 none seq)
    | '{' :: rest => do
      if seq.isEmpty then throw .countNothing
      go rest
      let (least, most) ← inModes counts
      sequences rounds level choices (← repeatLast .countNothing least most seq)
    | '\\' :: rest =>
      go rest
      let p ← inModes escape
      sequences rounds level choices (p :: seq)
    | '.' :: rest =>
      go rest
      sequences rounds level choices (anyChar s.modes :: seq)
    | '^' :: rest =>
      go rest
      sequences rounds level choices (look (startLook s.modes) :: seq)
    | '$' :: rest =>
      go rest
      sequences rounds level choices (look (finishLook s.modes) :: seq)
    | c :: rest =>
      go rest
      sequences rounds level choices (literal s.modes c :: seq)

/-- The pattern that a text writes. -/
def parse (text : String) : Except Error Pattern := do
  let cs := text.toList
  let (p, _) ← (sequences (cs.length + 1) 0 [] []).run ⟨cs, {}, 0, []⟩
  if maxDepth < p.depth then .error .tooMuchNesting
  else if maxWeight < p.weight then .error .tooHeavy
  else .ok p

end CompileFlags.Pattern
