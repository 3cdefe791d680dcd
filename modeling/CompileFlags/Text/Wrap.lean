import CompileFlags.Text.Escape
import CompileFlags.Text.Letters

/-!
# Wrapped text

A text of one paragraph is laid out in lines of a limited width. It is cut into pieces: at runs of
spaces, after a hyphen between letters or digits, and wherever a piece would be wider than a line. A
line takes pieces as long as they fit, and the spaces at its end are dropped.

* `wrap` is the list of lines.
-/

namespace CompileFlags.Text

/-! ## Width -/

/-- The columns of a character: one below U+1100, two from there on. -/
def wrapColumns (c : Char) : Nat := if c.toNat < 0x1100 then 1 else 2

/-- A text in parts that stay together: characters, and terminal sequences, each with its width. -/
def units (cs : List Char) : List (List Char × Nat) :=
  match cs with
  | [] => []
  | c :: rest =>
    if c = escapeChar then (c :: (sequence rest).1, 0) :: units (sequence rest).2
    else ([c], wrapColumns c) :: units rest
termination_by cs.length
decreasing_by
  · have := length_sequence_le rest; simp; omega
  · simp

/-- The width of a text. -/
def width (cs : List Char) : Nat := (units cs).foldl (fun n unit => n + unit.2) 0

/-- The parts of a text are the whole text. -/
theorem flatten_units (cs : List Char) : ((units cs).map Prod.fst).flatten = cs := by
  fun_induction units cs with
  | case1 => rfl
  | case2 rest ih => simp [ih, sequence_append]
  | case3 c rest _ ih => simp [ih]

/-! ## Pieces -/

/-- A part of a text that is not divided, and the number of spaces after it. -/
structure Piece where
  text : List Char
  spaces : Nat
  deriving DecidableEq, Repr

/-- A piece with its spaces. -/
def Piece.whole (p : Piece) : List Char := p.text ++ List.replicate p.spaces ' '

theorem length_dropWhile_le_length (p : Char → Bool) (cs : List Char) :
    (cs.dropWhile p).length ≤ cs.length := by
  induction cs with
  | nil => simp
  | cons c rest ih =>
    simp only [List.dropWhile_cons]
    split
    · simp only [List.length_cons]; omega
    · simp

/-- The words of a text, each with the spaces after it. Spaces at the start follow an empty word. -/
def words (cs : List Char) : List Piece :=
  match cs with
  | [] => []
  | c :: rest =>
    if c = ' ' then
      ⟨[], (rest.takeWhile (· == ' ')).length + 1⟩ :: words (rest.dropWhile (· == ' '))
    else
      let after := rest.dropWhile (· != ' ')
      ⟨c :: rest.takeWhile (· != ' '), (after.takeWhile (· == ' ')).length⟩ ::
        words (after.dropWhile (· == ' '))
termination_by cs.length
decreasing_by
  · have := length_dropWhile_le_length (· == ' ') rest; simp; omega
  · have h1 := length_dropWhile_le_length (· == ' ') (rest.dropWhile (· != ' '))
    have h2 := length_dropWhile_le_length (· != ' ') rest
    simp
    omega

/-- A word cut after each hyphen that stands between letters or digits; `before` is the character in
front of it. -/
def hyphenParts (before : Option Char) : List Char → List (List Char)
  | [] => [[]]
  | c :: rest =>
    let parts := hyphenParts (some c) rest
    if c = '-' ∧ before.any isWordPart ∧ rest.head?.any isWordPart then [c] :: parts
    else
      match parts with
      | [] => [[c]]
      | part :: more => (c :: part) :: more

/-- Parts with something more at the start of the first. -/
def startWith (u : List Char) : List (List Char) → List (List Char)
  | [] => [u]
  | part :: more => (u ++ part) :: more

/-- Parts of a text gathered until one more would be too wide, where `used` is the width of what has
been gathered before. -/
def gatherUnits (limit : Nat) (used : Nat) : List (List Char × Nat) → List (List Char)
  | [] => [[]]
  | (u, w) :: rest =>
    if 0 < used ∧ 0 < w ∧ limit < used + w then [] :: startWith u (gatherUnits limit w rest)
    else startWith u (gatherUnits limit (used + w) rest)

theorem flatten_startWith (u : List Char) (parts : List (List Char)) :
    (startWith u parts).flatten = u ++ parts.flatten := by
  cases parts <;> simp [startWith]

/-- The parts are all that was gathered. -/
theorem flatten_gatherUnits (limit used : Nat) (us : List (List Char × Nat)) :
    (gatherUnits limit used us).flatten = (us.map Prod.fst).flatten := by
  induction us generalizing used with
  | nil => rfl
  | cons unit rest ih =>
    simp only [gatherUnits]
    split <;> simp [flatten_startWith, ih]

/-- A text cut into parts that are not too wide, unless a single character is. -/
def breakApart (limit : Nat) (cs : List Char) : List (List Char) :=
  if width cs ≤ limit then [cs] else gatherUnits limit 0 (units cs)

/-- Parts of a word as pieces, of which the last has the spaces of the word. -/
def piecesOf (spaces : Nat) : List (List Char) → List Piece
  | [] => []
  | [part] => [⟨part, spaces⟩]
  | part :: more => ⟨part, 0⟩ :: piecesOf spaces more

/-- The pieces of a text. -/
def wrapPieces (limit : Nat) (cs : List Char) : List Piece :=
  (words cs).flatMap fun word =>
    piecesOf word.spaces ((hyphenParts none word.text).flatMap (breakApart limit))

/-! ## Lines -/

/-- Pieces gathered into lines; `line` is what has been gathered, and `used` its width with the
spaces at its end. -/
def fillLines (limit : Nat) (line : List Piece) (used : Nat) : List Piece → List (List Piece)
  | [] => [line]
  | p :: rest =>
    let w := width p.text
    if limit < used + w ∧ line ≠ [] then line :: fillLines limit [p] (w + p.spaces) rest
    else fillLines limit (line ++ [p]) (used + w + p.spaces) rest

/-- The text of a line, without the spaces at its end. -/
def lineText : List Piece → List Char
  | [] => []
  | [p] => p.text
  | p :: more => p.whole ++ lineText more

/-- The lines of a text. -/
def wrap (limit : Nat) (cs : List Char) : List (List Char) :=
  (fillLines limit [] 0 (wrapPieces limit cs)).map lineText

end CompileFlags.Text
