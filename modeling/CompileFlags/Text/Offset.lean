import CompileFlags.Text.Utf8

/-!
# Byte offsets

A text can be cut at a byte offset only where a character starts, or at its end. An offset past the
end, or one inside a character, cuts nothing. Error messages name the line and the column of a byte
instead: the line is one more than the number of newlines before the byte, and the column is the
number of bytes after the last of them.

* `dropBytes?_eq_some_iff`, `isSome_dropBytes?_iff` — there is a cut exactly at the boundaries.
* `Position.after_newline`, `Position.after_byte` — how a position moves on.
-/

namespace CompileFlags.Text

/-! ## Cuts -/

/-- Whether a byte offset is in a text and on the boundary of a character: so many bytes are a whole
number of characters at its start. -/
def IsBoundary (n : Nat) (cs : List Char) : Prop :=
  ∃ front rest, cs = front ++ rest ∧ (Utf8.encodeChars front).length = n

/-- The characters from a byte offset on, if a character starts there or the text ends there. -/
def dropBytes? : Nat → List Char → Option (List Char)
  | 0, cs => some cs
  | _ + 1, [] => none
  | n + 1, c :: cs =>
    let width := (Utf8.encodeChar c).length
    if width ≤ n + 1 then dropBytes? (n + 1 - width) cs else none

@[simp] theorem dropBytes?_zero (cs : List Char) : dropBytes? 0 cs = some cs := by
  cases cs <;> rfl

/-- A cut behind a whole character goes on behind it. -/
theorem dropBytes?_cons_add (c : Char) (n : Nat) (cs : List Char) :
    dropBytes? ((Utf8.encodeChar c).length + n) (c :: cs) = dropBytes? n cs := by
  obtain ⟨k, hk⟩ : ∃ k, (Utf8.encodeChar c).length = k + 1 :=
    Nat.exists_eq_succ_of_ne_zero fun h => Utf8.encodeChar_ne_nil c (List.length_eq_zero_iff.1 h)
  have hrest : k + n + 1 - (k + 1) = n := by omega
  rw [hk, Nat.add_right_comm, dropBytes?, hk, if_pos (by omega), hrest]

theorem dropBytes?_append (front rest : List Char) :
    dropBytes? (Utf8.encodeChars front).length (front ++ rest) = some rest := by
  induction front with
  | nil => exact dropBytes?_zero rest
  | cons c front ih =>
    rw [Utf8.encodeChars_cons, List.length_append, List.cons_append, dropBytes?_cons_add, ih]

/-- What a cut leaves, and what it takes off. -/
theorem dropBytes?_eq_some_iff {n : Nat} {cs rest : List Char} :
    dropBytes? n cs = some rest ↔
      ∃ front, cs = front ++ rest ∧ (Utf8.encodeChars front).length = n := by
  constructor
  · intro h
    fun_induction dropBytes? n cs with
    | case1 cs =>
      cases h
      exact ⟨[], rfl, rfl⟩
    | case2 => cases h
    | case3 n c cs width hle ih =>
      obtain ⟨front, rfl, hfront⟩ := ih h
      refine ⟨c :: front, rfl, ?_⟩
      rw [Utf8.encodeChars_cons, List.length_append, hfront]
      omega
    | case4 => cases h
  · rintro ⟨front, rfl, rfl⟩
    exact dropBytes?_append front rest

/-- There is a cut exactly at the boundaries. -/
theorem isSome_dropBytes?_iff {n : Nat} {cs : List Char} :
    (dropBytes? n cs).isSome = true ↔ IsBoundary n cs := by
  rw [Option.isSome_iff_exists, IsBoundary]
  constructor
  · rintro ⟨rest, h⟩
    obtain ⟨front, hfront⟩ := dropBytes?_eq_some_iff.1 h
    exact ⟨front, rest, hfront⟩
  · rintro ⟨front, rest, h⟩
    exact ⟨rest, dropBytes?_eq_some_iff.2 ⟨front, h⟩⟩

/-! ## Positions -/

/-- A line, counted from one, and the bytes before the spot on that line. -/
structure Position where
  line : Nat
  column : Nat
  deriving DecidableEq, Repr

/-- The position after some bytes. -/
def Position.after (before : Bytes) : Position where
  line := before.count 0x0A + 1
  column := (before.reverse.takeWhile (· != 0x0A)).length

/-- The position of the byte with the given offset in a text. -/
def Position.ofOffset (text : String) (offset : Nat) : Position :=
  .after ((Utf8.encode text).take offset)

/-- After a newline stands column zero of the next line. -/
theorem Position.after_newline (before : Bytes) :
    Position.after (before ++ [0x0A]) = ⟨(Position.after before).line + 1, 0⟩ := by
  simp [Position.after]

/-- After any other byte the column is one more. -/
theorem Position.after_byte (before : Bytes) {b : UInt8} (h : b ≠ 0x0A) :
    Position.after (before ++ [b]) =
      ⟨(Position.after before).line, (Position.after before).column + 1⟩ := by
  simp [Position.after, h, List.count_append]

end CompileFlags.Text
