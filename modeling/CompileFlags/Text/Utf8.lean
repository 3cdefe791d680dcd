/-!
# UTF-8

Text and bytes. `encode` writes a text as bytes, `decode` reads bytes back and names the first
spot that is no text, and `lossy` reads any bytes, with U+FFFD for each piece that is no text.

* `encodeChar_of_mem` — a byte below 0x80 comes from the ASCII character with its number and from
  no other.
* `decode_encode` — every text is read back from its bytes.
* `lossy_encode` — on the bytes of a text `lossy` loses nothing.
-/

namespace CompileFlags

/-- A run of bytes: the contents of a file, a path or an argument. -/
abbrev Bytes := List UInt8

namespace Utf8

/-! ## Writing -/

/-- The one to four bytes of a character. -/
def encodeChar (c : Char) : Bytes :=
  let n := c.toNat
  if n < 0x80 then [UInt8.ofNat n]
  else if n < 0x800 then [UInt8.ofNat (0xC0 + n / 64), UInt8.ofNat (0x80 + n % 64)]
  else if n < 0x10000 then
    [UInt8.ofNat (0xE0 + n / 4096), UInt8.ofNat (0x80 + n / 64 % 64), UInt8.ofNat (0x80 + n % 64)]
  else
    [UInt8.ofNat (0xF0 + n / 262144), UInt8.ofNat (0x80 + n / 4096 % 64),
      UInt8.ofNat (0x80 + n / 64 % 64), UInt8.ofNat (0x80 + n % 64)]

/-- The bytes of a list of characters. -/
def encodeChars (cs : List Char) : Bytes := cs.flatMap encodeChar

/-- The bytes of a text. -/
def encode (s : String) : Bytes := encodeChars s.toList

@[simp] theorem encodeChars_nil : encodeChars [] = [] := rfl

@[simp] theorem encodeChars_cons (c : Char) (cs : List Char) :
    encodeChars (c :: cs) = encodeChar c ++ encodeChars cs := rfl

@[simp] theorem encodeChars_append (a b : List Char) :
    encodeChars (a ++ b) = encodeChars a ++ encodeChars b := by
  simp [encodeChars]

@[simp] theorem encode_append (a b : String) : encode (a ++ b) = encode a ++ encode b := by
  simp [encode]

/-! ## ASCII bytes -/

theorem encodeChar_of_ascii {c : Char} (h : c.toNat < 0x80) :
    encodeChar c = [UInt8.ofNat c.toNat] := by
  rw [encodeChar, if_pos h]

theorem encodeChar_ne_nil (c : Char) : encodeChar c ≠ [] := by
  unfold encodeChar
  dsimp only
  repeat' split
  all_goals exact List.cons_ne_nil _ _

theorem le_toNat_ofNat {n : Nat} (h : 0x80 ≤ n) (h' : n < 0x100) :
    0x80 ≤ (UInt8.ofNat n).toNat := by
  rw [UInt8.toNat_ofNat', Nat.mod_eq_of_lt h']
  exact h

/-- Every byte of a character beyond ASCII is at least 0x80. -/
theorem le_toNat_of_mem_encodeChar {b : UInt8} {c : Char} (hc : ¬c.toNat < 0x80)
    (h : b ∈ encodeChar c) : 0x80 ≤ b.toNat := by
  have hv : c.toNat < 0xD800 ∨ (0xDFFF < c.toNat ∧ c.toNat < 0x110000) := c.valid
  unfold encodeChar at h
  dsimp only at h
  rw [if_neg hc] at h
  split at h
  · simp only [List.mem_cons, List.not_mem_nil, or_false] at h
    rcases h with rfl | rfl <;> exact le_toNat_ofNat (by omega) (by omega)
  split at h
  · simp only [List.mem_cons, List.not_mem_nil, or_false] at h
    rcases h with rfl | rfl | rfl <;> exact le_toNat_ofNat (by omega) (by omega)
  · simp only [List.mem_cons, List.not_mem_nil, or_false] at h
    rcases h with rfl | rfl | rfl | rfl <;> exact le_toNat_ofNat (by omega) (by omega)

/-- A byte below 0x80 is a character of its own. -/
theorem encodeChar_of_mem {b : UInt8} {c : Char} (h : b ∈ encodeChar c) (hb : b.toNat < 0x80) :
    c.toNat = b.toNat ∧ encodeChar c = [b] := by
  have hc : c.toNat < 0x80 := by
    refine Decidable.byContradiction fun hc => ?_
    have := le_toNat_of_mem_encodeChar hc h
    omega
  rw [encodeChar_of_ascii hc] at h ⊢
  rw [List.mem_singleton] at h
  refine ⟨?_, by rw [h]⟩
  rw [h, UInt8.toNat_ofNat', Nat.mod_eq_of_lt (by omega)]

/-- A byte below 0x80 at the start of a text is its first character. -/
theorem exists_cons_of_encodeChars_eq_cons {b : UInt8} {bs : Bytes} {cs : List Char}
    (h : encodeChars cs = b :: bs) (hb : b.toNat < 0x80) :
    ∃ c rest, cs = c :: rest ∧ c.toNat = b.toNat ∧ encodeChars rest = bs := by
  cases cs with
  | nil => cases h
  | cons c rest =>
    rw [encodeChars_cons] at h
    obtain ⟨first, more, hc⟩ := List.exists_cons_of_ne_nil (encodeChar_ne_nil c)
    have hfirst : first = b := by
      rw [hc] at h
      exact (List.cons.inj h).1
    obtain ⟨hn, hone⟩ := encodeChar_of_mem (by rw [hc, hfirst]; exact List.mem_cons_self) hb
    rw [hone] at h
    exact ⟨c, rest, rfl, hn, (List.cons.inj h).2⟩

/-! ## Reading one character -/

/-- What stands at the front of a run of bytes. -/
inductive Front where
  /-- Nothing is left. -/
  | finished
  /-- A character, and the bytes after it. -/
  | char (c : Char) (rest : Bytes)
  /-- So many bytes that start no character, and the bytes after them. -/
  | bad (width : Nat) (rest : Bytes)
  /-- The bytes end inside a character. -/
  | cut

/-- What a first byte announces: its share of the character's number, and for each byte that has
to follow the least and the greatest it may be. The bounds on the second byte keep out surrogates,
numbers that fit in fewer bytes, and numbers above U+10FFFF. -/
def lead (b : UInt8) : Option (Nat × List (Nat × Nat)) :=
  let n := b.toNat
  if n < 0x80 then some (n, [])
  else if n < 0xC2 then none
  else if n < 0xE0 then some (n - 0xC0, [(0x80, 0xBF)])
  else if n = 0xE0 then some (0, [(0xA0, 0xBF), (0x80, 0xBF)])
  else if n = 0xED then some (0xD, [(0x80, 0x9F), (0x80, 0xBF)])
  else if n < 0xF0 then some (n - 0xE0, [(0x80, 0xBF), (0x80, 0xBF)])
  else if n = 0xF0 then some (0, [(0x90, 0xBF), (0x80, 0xBF), (0x80, 0xBF)])
  else if n < 0xF4 then some (n - 0xF0, [(0x80, 0xBF), (0x80, 0xBF), (0x80, 0xBF)])
  else if n = 0xF4 then some (4, [(0x80, 0x8F), (0x80, 0xBF), (0x80, 0xBF)])
  else none

/-- Reads the bytes that have to follow, after `seen` bytes worth `value`. The first byte out of its
bounds is not part of the piece that is no character. -/
def follow (value seen : Nat) : List (Nat × Nat) → Bytes → Front
  | [], rest => .char (Char.ofNat value) rest
  | _ :: _, [] => .cut
  | (low, high) :: bounds, b :: rest =>
    if low ≤ b.toNat ∧ b.toNat ≤ high then
      follow (value * 64 + (b.toNat - 0x80)) (seen + 1) bounds rest
    else .bad seen (b :: rest)

/-- The front of a run of bytes. -/
def front : Bytes → Front
  | [] => .finished
  | b :: rest =>
    match lead b with
    | none => .bad 1 rest
    | some (value, bounds) => follow value 1 bounds rest

theorem follow_char_length {value seen : Nat} {bounds : List (Nat × Nat)} {bs rest : Bytes}
    {c : Char} (h : follow value seen bounds bs = .char c rest) : rest.length ≤ bs.length := by
  induction bounds generalizing value seen bs with
  | nil => simp only [follow, Front.char.injEq] at h; simp [h.2]
  | cons range bounds ih =>
    cases bs with
    | nil => simp [follow] at h
    | cons b bs =>
      simp only [follow] at h
      split at h
      · have := ih h; simp; omega
      · simp at h

theorem follow_bad_length {value seen width : Nat} {bounds : List (Nat × Nat)} {bs rest : Bytes}
    (h : follow value seen bounds bs = .bad width rest) : rest.length ≤ bs.length := by
  induction bounds generalizing value seen bs with
  | nil => simp [follow] at h
  | cons range bounds ih =>
    cases bs with
    | nil => simp [follow] at h
    | cons b bs =>
      simp only [follow] at h
      split at h
      · have := ih h; simp; omega
      · simp only [Front.bad.injEq] at h; simp [← h.2]

/-- Reading a character makes the bytes fewer. -/
theorem front_char_length {bs rest : Bytes} {c : Char} (h : front bs = .char c rest) :
    rest.length < bs.length := by
  cases bs with
  | nil => simp [front] at h
  | cons b bs =>
    simp only [front] at h
    split at h
    · simp at h
    · have := follow_char_length h; simp; omega

/-- Passing over a piece that is no character makes the bytes fewer. -/
theorem front_bad_length {bs rest : Bytes} {width : Nat} (h : front bs = .bad width rest) :
    rest.length < bs.length := by
  cases bs with
  | nil => simp [front] at h
  | cons b bs =>
    simp only [front] at h
    split at h
    · simp only [Front.bad.injEq] at h; simp [← h.2]
    · have := follow_bad_length h; simp; omega

/-! ## Reading a text -/

/-- Where bytes stop being text: how many bytes before the spot are text, and how many bytes there
form no character, or `none` if the bytes end inside one. -/
structure Malformed where
  offset : Nat
  width : Option Nat
  deriving DecidableEq, Repr

/-- The message of a failed reading. -/
def Malformed.message (m : Malformed) : String :=
  match m.width with
  | some n =>
    "invalid utf-8 sequence of " ++ toString n ++ " bytes from index " ++ toString m.offset
  | none => "incomplete utf-8 byte sequence from index " ++ toString m.offset

/-- The characters of a run of bytes that stands `offset` bytes into its text. -/
def decodeFrom (offset : Nat) (bs : Bytes) : Except Malformed (List Char) :=
  match _h : front bs with
  | .finished => .ok []
  | .char c rest =>
    match decodeFrom (offset + c.utf8Size) rest with
    | .ok cs => .ok (c :: cs)
    | .error e => .error e
  | .bad width _ => .error ⟨offset, some width⟩
  | .cut => .error ⟨offset, none⟩
termination_by bs.length
decreasing_by exact front_char_length _h

/-- The text of a run of bytes, or where they stop being text. -/
def decode (bs : Bytes) : Except Malformed String :=
  (decodeFrom 0 bs).map String.ofList

/-- The characters of any bytes, each piece that is no character read as U+FFFD. -/
def lossyChars (bs : Bytes) : List Char :=
  match _h : front bs with
  | .finished => []
  | .char c rest => c :: lossyChars rest
  | .bad _ rest => '\uFFFD' :: lossyChars rest
  | .cut => ['\uFFFD']
termination_by bs.length
decreasing_by
  · exact front_char_length _h
  · exact front_bad_length _h

/-- The text of any bytes, each piece that is no character read as U+FFFD. -/
def lossy (bs : Bytes) : String := String.ofList (lossyChars bs)

/-! ## Reading what was written -/

theorem front_encodeChar (c : Char) (rest : Bytes) :
    front (encodeChar c ++ rest) = .char c rest := by
  have hv : c.toNat < 0xD800 ∨ (0xDFFF < c.toNat ∧ c.toNat < 0x110000) := c.valid
  have hc : Char.ofNat c.toNat = c := Char.ofNat_toNat c
  generalize hn : c.toNat = n at hv hc
  unfold encodeChar
  rw [hn]
  by_cases h1 : n < 0x80
  · have e : (UInt8.ofNat n).toNat = n := by simp; omega
    simp [h1, front, lead, follow, e, hc]
  · by_cases h2 : n < 0x800
    · have e : (UInt8.ofNat (0xC0 + n / 64)).toNat = 0xC0 + n / 64 := by simp; omega
      have e2 : (UInt8.ofNat (0x80 + n % 64)).toNat = 0x80 + n % 64 := by simp; omega
      have hl : lead (UInt8.ofNat (0xC0 + n / 64)) = some (n / 64, [(0x80, 0xBF)]) := by
        unfold lead
        simp only [e]
        rw [if_neg (by omega), if_neg (by omega), if_pos (by omega)]
        simp
      simp only [h1, h2, if_true, if_false, List.cons_append, List.nil_append, front, hl, follow,
        e2]
      rw [if_pos (by omega), show n / 64 * 64 + (0x80 + n % 64 - 0x80) = n by omega, hc]
    · by_cases h3 : n < 0x10000
      · have e : (UInt8.ofNat (0xE0 + n / 4096)).toNat = 0xE0 + n / 4096 := by simp; omega
        have e2 : (UInt8.ofNat (0x80 + n / 64 % 64)).toNat = 0x80 + n / 64 % 64 := by simp; omega
        have e3 : (UInt8.ofNat (0x80 + n % 64)).toNat = 0x80 + n % 64 := by simp; omega
        have hl : ∃ low high, low ≤ 0x80 + n / 64 % 64 ∧ 0x80 + n / 64 % 64 ≤ high ∧
            lead (UInt8.ofNat (0xE0 + n / 4096)) =
              some (n / 4096, [(low, high), (0x80, 0xBF)]) := by
          unfold lead
          simp only [e]
          rw [if_neg (by omega), if_neg (by omega), if_neg (by omega)]
          split
          · exact ⟨0xA0, 0xBF, by omega, by omega, by simp; omega⟩
          · split
            · exact ⟨0x80, 0x9F, by omega, by omega, by simp; omega⟩
            · rw [if_pos (by omega)]
              exact ⟨0x80, 0xBF, by omega, by omega, by simp⟩
        obtain ⟨low, high, hlo, hhi, hl⟩ := hl
        simp only [h1, h2, h3, if_true, if_false, List.cons_append, List.nil_append, front, hl,
          follow, e2, e3]
        rw [if_pos ⟨hlo, hhi⟩, if_pos (by omega),
          show (n / 4096 * 64 + (0x80 + n / 64 % 64 - 0x80)) * 64 + (0x80 + n % 64 - 0x80) = n by
            omega,
          hc]
      · have e : (UInt8.ofNat (0xF0 + n / 262144)).toNat = 0xF0 + n / 262144 := by simp; omega
        have e2 : (UInt8.ofNat (0x80 + n / 4096 % 64)).toNat = 0x80 + n / 4096 % 64 := by
          simp; omega
        have e3 : (UInt8.ofNat (0x80 + n / 64 % 64)).toNat = 0x80 + n / 64 % 64 := by simp; omega
        have e4 : (UInt8.ofNat (0x80 + n % 64)).toNat = 0x80 + n % 64 := by simp; omega
        have hl : ∃ low high, low ≤ 0x80 + n / 4096 % 64 ∧ 0x80 + n / 4096 % 64 ≤ high ∧
            lead (UInt8.ofNat (0xF0 + n / 262144)) =
              some (n / 262144, [(low, high), (0x80, 0xBF), (0x80, 0xBF)]) := by
          unfold lead
          simp only [e]
          rw [if_neg (by omega), if_neg (by omega), if_neg (by omega), if_neg (by omega),
            if_neg (by omega), if_neg (by omega)]
          split
          · exact ⟨0x90, 0xBF, by omega, by omega, by simp; omega⟩
          · split
            · exact ⟨0x80, 0xBF, by omega, by omega, by simp⟩
            · rw [if_pos (by omega)]
              exact ⟨0x80, 0x8F, by omega, by omega, by simp; omega⟩
        obtain ⟨low, high, hlo, hhi, hl⟩ := hl
        simp only [h1, h2, h3, if_false, List.cons_append, List.nil_append, front, hl, follow,
          e2, e3, e4]
        rw [if_pos ⟨hlo, hhi⟩, if_pos (by omega), if_pos (by omega),
          show ((n / 262144 * 64 + (0x80 + n / 4096 % 64 - 0x80)) * 64
            + (0x80 + n / 64 % 64 - 0x80)) * 64 + (0x80 + n % 64 - 0x80) = n by omega, hc]

theorem decodeFrom_encodeChars (offset : Nat) (cs : List Char) :
    decodeFrom offset (encodeChars cs) = .ok cs := by
  induction cs generalizing offset with
  | nil => simp [decodeFrom, front]
  | cons c cs ih =>
    rw [decodeFrom]
    split
    · rename_i h; rw [encodeChars_cons, front_encodeChar] at h; cases h
    · rename_i h
      rw [encodeChars_cons, front_encodeChar] at h
      cases h
      rw [ih]
    · rename_i h; rw [encodeChars_cons, front_encodeChar] at h; cases h
    · rename_i h; rw [encodeChars_cons, front_encodeChar] at h; cases h

/-- Every text is read back from its bytes. -/
theorem decode_encode (s : String) : decode (encode s) = .ok s := by
  simp [decode, encode, decodeFrom_encodeChars, Except.map]

theorem lossyChars_encodeChars (cs : List Char) : lossyChars (encodeChars cs) = cs := by
  induction cs with
  | nil => simp [lossyChars, front]
  | cons c cs ih =>
    rw [lossyChars]
    split
    · rename_i h; rw [encodeChars_cons, front_encodeChar] at h; cases h
    · rename_i h
      rw [encodeChars_cons, front_encodeChar] at h
      cases h
      rw [ih]
    · rename_i h; rw [encodeChars_cons, front_encodeChar] at h; cases h
    · rename_i h; rw [encodeChars_cons, front_encodeChar] at h; cases h

/-- On the bytes of a text the lossy reading loses nothing. -/
theorem lossy_encode (s : String) : lossy (encode s) = s := by
  simp [lossy, encode, lossyChars_encodeChars]

end Utf8

end CompileFlags
