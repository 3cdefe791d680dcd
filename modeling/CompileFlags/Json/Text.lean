import CompileFlags.Json.Input
import CompileFlags.Text.Character
import CompileFlags.Text.Pieces

/-!
# Texts, lists and objects

A text is written in double quotes. A backslash starts an escape: a letter for a usual character, or
`u` and four hexadecimal digits for a unit of 16 bits, two of which make one character beyond the
first 65536. Lists and objects are written on one line and without blanks.

* `quote` writes a text, with the escapes that it needs.
* `body` reads the inside of a text up to its closing quote.
* `body_quote` — reading what is written gives the text back, whatever follows.
* `listOf` and `objectOf` write lists and objects of values that are written already.
-/

namespace CompileFlags.Json.Text

open CompileFlags.Text (hexValue? charOfNat?)

/-! ## Reading -/

/-- The number of bytes left of a text. -/
def bytesLeft (cs : List Char) : Nat := cs.foldl (fun n c => n + c.utf8Size) 0

/-- The value of four hexadecimal digits. -/
def hexFour (i : Input) : Except Failure (Nat × Input) :=
  match i.rest with
  | a :: b :: c :: d :: rest =>
    match hexValue? a, hexValue? b, hexValue? c, hexValue? d with
    | some a, some b, some c, some d =>
      .ok (((a * 16 + b) * 16 + c) * 16 + d, ⟨i.offset + 4, rest⟩)
    | _, _, _, _ => .error ⟨.invalidEscape, i.offset + 4⟩
  | short =>
    if bytesLeft short < 4 then .error ⟨.stringCut, i.offset + bytesLeft short⟩
    else .error ⟨.invalidEscape, i.offset + 4⟩

/-- Whether a unit is the first of two, or the second of two. -/
def isLeading (unit : Nat) : Bool := 0xD800 ≤ unit && unit ≤ 0xDBFF
def isTrailing (unit : Nat) : Bool := 0xDC00 ≤ unit && unit ≤ 0xDFFF

/-- The character that two units make. -/
def combine (leading trailing : Nat) : Nat :=
  (leading - 0xD800) * 0x400 + (trailing - 0xDC00) + 0x10000

/-- A character as what is read, before `i`. -/
def yield (number : Nat) (i : Input) : Except Failure (Char × Input) :=
  match charOfNat? number with
  | some c => .ok (c, i)
  | none => .error ⟨.loneSurrogate, i.offset⟩

/-- The unit after a leading one, which has to be written as an escape too. -/
def trailing (i : Input) : Except Failure (Nat × Input) :=
  match i.rest with
  | '\\' :: rest =>
    match rest with
    | 'u' :: rest => hexFour ⟨i.offset + 2, rest⟩
    | rest => (Input.mk (i.offset + 1) rest).refuse .stringCut .hexEscapeCut
  | _ => i.refuse .stringCut .hexEscapeCut

/-- The character that an escape gives by its number. -/
def numbered (i : Input) : Except Failure (Char × Input) :=
  match hexFour i with
  | .error f => .error f
  | .ok (unit, i) =>
    if isLeading unit then
      match trailing i with
      | .error f => .error f
      | .ok (next, i) =>
        if isTrailing next then yield (combine unit next) i else .error ⟨.loneSurrogate, i.offset⟩
    else yield unit i

/-- The character that a letter stands for in an escape. -/
def simple? : Char → Option Char
  | '"' => some '"'
  | '\\' => some '\\'
  | '/' => some '/'
  | 'b' => some '\x08'
  | 'f' => some '\x0C'
  | 'n' => some '\n'
  | 'r' => some '\r'
  | 't' => some '\t'
  | _ => none

/-- The character of an escape after its backslash. -/
def escape (i : Input) : Except Failure (Char × Input) :=
  match i.rest with
  | 'u' :: rest => numbered ⟨i.offset + 1, rest⟩
  | c :: rest =>
    match simple? c with
    | some c => .ok (c, ⟨i.offset + 1, rest⟩)
    | none => .error ⟨.invalidEscape, i.offset + 1⟩
  | [] => .error ⟨.stringCut, i.offset⟩

theorem hexFour_length {i j : Input} {n : Nat} (h : hexFour i = .ok (n, j)) :
    j.rest.length ≤ i.rest.length := by
  unfold hexFour at h
  split at h
  · rename_i hi
    split at h
    · simp only [Except.ok.injEq, Prod.mk.injEq] at h
      simp only [← h.2, hi, List.length_cons]
      omega
    · simp at h
  · split at h <;> simp at h

theorem yield_input {i j : Input} {n : Nat} {c : Char} (h : yield n i = .ok (c, j)) : j = i := by
  unfold yield at h
  split at h <;> simp_all

theorem trailing_length {i j : Input} {n : Nat} (h : trailing i = .ok (n, j)) :
    j.rest.length ≤ i.rest.length := by
  unfold trailing at h
  split at h
  · rename_i hi
    split at h
    · have := hexFour_length h
      simp only [hi, List.length_cons] at *
      omega
    · unfold Input.refuse at h
      split at h <;> simp at h
  · unfold Input.refuse at h
    split at h <;> simp at h

theorem numbered_length {i j : Input} {c : Char} (h : numbered i = .ok (c, j)) :
    j.rest.length ≤ i.rest.length := by
  unfold numbered at h
  split at h
  · simp at h
  · rename_i hf
    have h1 := hexFour_length hf
    split at h
    · split at h
      · simp at h
      · rename_i ht
        have h2 := trailing_length ht
        split at h
        · rw [yield_input h]
          omega
        · simp at h
    · rw [yield_input h]
      omega

theorem escape_length {i j : Input} {c : Char} (h : escape i = .ok (c, j)) :
    j.rest.length ≤ i.rest.length := by
  unfold escape at h
  split at h
  · rename_i hi
    have := numbered_length h
    simp only [hi, List.length_cons] at *
    omega
  · rename_i hi
    split at h
    · simp only [Except.ok.injEq, Prod.mk.injEq] at h
      simp [← h.2, hi]
    · simp at h
  · simp at h

/-- What is read with one more character before it. -/
def prepend (c : Char) (read : List Char × Input) : List Char × Input := (c :: read.1, read.2)

/-- The inside of a text up to its closing quote, and the input after that. -/
def body (i : Input) : Except Failure (List Char × Input) :=
  match _hi : i.rest with
  | [] => .error ⟨.stringCut, i.offset⟩
  | c :: rest =>
    if c = '"' then .ok ([], ⟨i.offset + 1, rest⟩)
    else if c = '\\' then
      match _h : escape ⟨i.offset + 1, rest⟩ with
      | .ok (c, j) => (body j).map (prepend c)
      | .error f => .error f
    else if c.toNat < 0x20 then .error ⟨.controlCharacter, i.offset + 1⟩
    else (body ⟨i.offset + c.utf8Size, rest⟩).map (prepend c)
termination_by i.rest.length
decreasing_by
  · have := escape_length _h
    rw [_hi]
    simp only [List.length_cons] at *
    omega
  · rw [_hi]
    simp

/-! ## Writing -/

/-- A character inside a written text. -/
def escaped (c : Char) : List Char :=
  if c = '"' then ['\\', '"']
  else if c = '\\' then ['\\', '\\']
  else if c = '\x08' then ['\\', 'b']
  else if c = '\t' then ['\\', 't']
  else if c = '\n' then ['\\', 'n']
  else if c = '\x0C' then ['\\', 'f']
  else if c = '\r' then ['\\', 'r']
  else if c.toNat < 0x20 then
    ['\\', 'u', '0', '0', Nat.digitChar (c.toNat / 16), Nat.digitChar (c.toNat % 16)]
  else [c]

/-- A text as it is written. -/
def quote (s : String) : List Char := '"' :: s.toList.flatMap escaped ++ ['"']

/-! ## Reading what is written -/

theorem hexValue?_digitChar : ∀ d < 16, hexValue? (Nat.digitChar d) = some d := by decide

theorem body_escape {offset : Nat} {rest : List Char} {c : Char} {j : Input}
    (h : escape ⟨offset + 1, rest⟩ = .ok (c, j)) :
    body ⟨offset, '\\' :: rest⟩ = (body j).map (prepend c) := by
  rw [body]
  simp only [Char.reduceEq, if_false, if_true]
  split
  · rename_i h2
    rw [h] at h2
    simp only [Except.ok.injEq, Prod.mk.injEq] at h2
    rw [← h2.1, ← h2.2]
  · rename_i h2
    rw [h] at h2
    simp at h2

theorem escape_control {offset : Nat} {rest : List Char} {c : Char} (h : c.toNat < 0x20) :
    escape ⟨offset, 'u' :: '0' :: '0' :: Nat.digitChar (c.toNat / 16) ::
      Nat.digitChar (c.toNat % 16) :: rest⟩ = .ok (c, ⟨offset + 5, rest⟩) := by
  have h1 := hexValue?_digitChar (c.toNat / 16) (by omega)
  have h2 := hexValue?_digitChar (c.toNat % 16) (by omega)
  have h3 : hexValue? '0' = some 0 := by decide
  have h4 : c.toNat / 16 * 16 + c.toNat % 16 = c.toNat := by omega
  have h5 : isLeading c.toNat = false := by simp [isLeading]; omega
  simp [escape, numbered, hexFour, h1, h2, h3, h4, h5, yield, CompileFlags.Text.charOfNat?_toNat]

/-- A character that is written is read back. -/
theorem body_escaped (c : Char) (offset : Nat) (rest : List Char) :
    ∃ n, body ⟨offset, escaped c ++ rest⟩ = (body ⟨n, rest⟩).map (prepend c) := by
  unfold escaped
  repeat' split
  all_goals try (subst c; exact ⟨offset + 2, body_escape (by simp [escape, simple?])⟩)
  · rename_i h
    exact ⟨offset + 6, body_escape (escape_control h)⟩
  · exact ⟨offset + c.utf8Size, by rw [List.singleton_append, body]; simp [*]⟩

/-- A text that is written is read back, whatever follows. -/
theorem body_quote (s : String) (offset : Nat) (rest : List Char) :
    ∃ n, body ⟨offset, s.toList.flatMap escaped ++ '"' :: rest⟩ = .ok (s.toList, ⟨n, rest⟩) := by
  induction s.toList generalizing offset with
  | nil => exact ⟨offset + 1, by rw [List.flatMap_nil, List.nil_append, body]; simp⟩
  | cons c cs ih =>
    obtain ⟨n, hn⟩ := body_escaped c offset (cs.flatMap escaped ++ '"' :: rest)
    obtain ⟨m, hm⟩ := ih n
    exact ⟨m, by simp [List.flatMap_cons, hn, hm, Except.map, prepend]⟩

end CompileFlags.Json.Text

namespace CompileFlags.Json

/-! ## Lists and objects -/

/-- A list of values that are written already. -/
def listOf (items : List (List Char)) : List Char := '[' :: joinPieces [','] items ++ [']']

/-- An object with keys and values that are written already. -/
def objectOf (members : List (String × List Char)) : List Char :=
  '{' :: joinPieces [','] (members.map fun m => Text.quote m.1 ++ ':' :: m.2) ++ ['}']

/-- A list of texts. -/
def texts (items : List String) : List Char := listOf (items.map Text.quote)

/-- A boolean. -/
def boolean (b : Bool) : List Char := if b then ['t', 'r', 'u', 'e'] else ['f', 'a', 'l', 's', 'e']

end CompileFlags.Json
