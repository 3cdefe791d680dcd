/-!
# Styled text

Text for a terminal, set off by sequences that start with an escape character and a bracket. They
are no part of what is shown.

* `unstyled` deletes the sequences that set styles: an escape, a bracket, and everything up to the
  next `m`. An escape without such an end stays.
-/

namespace CompileFlags

/-- How a text is set off. -/
inductive Style where
  /-- Bold, as the labels of columns are. -/
  | label
  /-- Bold and blue, as what deserves a note is. -/
  | note
  deriving DecidableEq, Repr

namespace Style

/-- The sequence with a number. -/
def sequence (number : List Char) : List Char := ['\x1B', '['] ++ number ++ ['m']

/-- Ends all styles. -/
def reset : List Char := sequence ['0']

/-- Starts a style; any other is ended first. -/
def start : Style → List Char
  | label => reset ++ sequence ['1']
  | note => reset ++ sequence ['1'] ++ sequence ['3', '4']

/-- A text in a style, or as it is without colors. -/
def apply (colored : Bool) (s : Style) (text : List Char) : List Char :=
  if colored then s.start ++ text ++ reset else text

end Style

/-- What follows the first `m`, if there is one. -/
def afterEnd? : List Char → Option (List Char)
  | [] => none
  | c :: rest => if c = 'm' then some rest else afterEnd? rest

theorem length_lt_of_afterEnd? {cs rest : List Char} (h : afterEnd? cs = some rest) :
    rest.length < cs.length := by
  induction cs with
  | nil => simp [afterEnd?] at h
  | cons c more ih =>
    simp only [afterEnd?] at h
    split at h
    · simp only [Option.some.injEq] at h
      simp [h]
    · have := ih h
      simp only [List.length_cons]
      omega

/-- A text without the sequences that set styles. -/
def unstyled (cs : List Char) : List Char :=
  match cs with
  | [] => []
  | [c] => [c]
  | c :: d :: rest =>
    if c = '\x1B' ∧ d = '[' then
      match _h : afterEnd? rest with
      | some rest => unstyled rest
      | none => c :: d :: rest
    else c :: unstyled (d :: rest)
termination_by cs.length
decreasing_by
  · have := length_lt_of_afterEnd? _h; simp; omega
  · simp

end CompileFlags
