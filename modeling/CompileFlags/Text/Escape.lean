/-!
# Terminal sequences

Sequences that start with an escape character tell a terminal what to do and take no place on it. A
control sequence is an escape, a bracket and everything up to a byte that ends it; a command of the
operating system goes on up to a bell or an escaped backslash; any other escape takes one character
with it.

* `sequence` splits what follows an escape into its sequence and the rest.
* `sequence_append` — nothing is lost.
-/

namespace CompileFlags.Text

/-- The character that starts a sequence. -/
def escapeChar : Char := '\x1B'

/-- Whether a character ends a control sequence. -/
def isFinal (c : Char) : Bool := '@' ≤ c && c ≤ '~'

/-- A list up to the first element of a kind, and the rest after that element. -/
def throughFirst (p : Char → Bool) (cs : List Char) : List Char × List Char :=
  match cs with
  | [] => ([], [])
  | c :: rest =>
    if p c then ([c], rest) else (c :: (throughFirst p rest).1, (throughFirst p rest).2)

/-- A command up to its end, where `last` was read before, and the rest after it. -/
def throughCommand (last : Char) (cs : List Char) : List Char × List Char :=
  match cs with
  | [] => ([], [])
  | c :: rest =>
    if c = '\x07' ∨ (c = '\\' ∧ last = escapeChar) then ([c], rest)
    else (c :: (throughCommand c rest).1, (throughCommand c rest).2)

/-- What belongs to an escape before a text, and the rest of the text. -/
def sequence : List Char → List Char × List Char
  | '[' :: rest => ('[' :: (throughFirst isFinal rest).1, (throughFirst isFinal rest).2)
  | ']' :: rest => (']' :: (throughCommand ']' rest).1, (throughCommand ']' rest).2)
  | c :: rest => ([c], rest)
  | [] => ([], [])

theorem throughFirst_append (p : Char → Bool) (cs : List Char) :
    (throughFirst p cs).1 ++ (throughFirst p cs).2 = cs := by
  induction cs with
  | nil => rfl
  | cons c rest ih =>
    simp only [throughFirst]
    split
    · rfl
    · simp [ih]

theorem throughCommand_append (last : Char) (cs : List Char) :
    (throughCommand last cs).1 ++ (throughCommand last cs).2 = cs := by
  induction cs generalizing last with
  | nil => rfl
  | cons c rest ih =>
    simp only [throughCommand]
    split
    · rfl
    · simp [ih]

/-- A sequence and the rest are the whole. -/
theorem sequence_append (cs : List Char) : (sequence cs).1 ++ (sequence cs).2 = cs := by
  unfold sequence
  split
  · simp [throughFirst_append]
  · simp [throughCommand_append]
  · rfl
  · rfl

theorem length_sequence_le (cs : List Char) : (sequence cs).2.length ≤ cs.length := by
  have h := congrArg List.length (sequence_append cs)
  rw [List.length_append] at h
  omega

end CompileFlags.Text
