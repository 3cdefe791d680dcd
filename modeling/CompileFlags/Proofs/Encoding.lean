import CompileFlags.Text.Utf8
import Mathlib.Data.List.Basic

/-!
# Bytes that are texts

* `length_encode` — a text has as many bytes as its size says.
* `decode_eq_ok_iff` — bytes are read as a text exactly when they are the bytes of that text.
* `ofNat_mem_encode_iff` — a text holds an ASCII character exactly when its bytes hold the byte of
  it.
* `head?_encode_eq_iff`, `getLast?_encode_eq_iff` — a text starts or ends with an ASCII character
  exactly when its bytes start or end with the byte of it.
-/

namespace CompileFlags.Utf8

/-! ## Sizes -/

/-- A character has as many bytes as its number asks for. -/
theorem length_encodeChar (c : Char) : (encodeChar c).length = c.utf8Size := by
  have hle (n : UInt32) : c.val ≤ n ↔ c.toNat < n.toNat + 1 := by
    rw [UInt32.le_iff_toNat_le]
    exact Nat.lt_succ_iff.symm
  have hsize : c.utf8Size =
      if c.toNat < 0x80 then 1 else if c.toNat < 0x800 then 2 else if c.toNat < 0x10000 then 3
      else 4 := by
    simp only [Char.utf8Size, hle]
    rfl
  rw [hsize]
  simp only [encodeChar, apply_ite List.length, List.length_cons, List.length_nil]

theorem length_encode (s : String) : (encode s).length = s.utf8ByteSize := by
  have hchars (cs : List Char) : (encodeChars cs).length = (String.ofList cs).utf8ByteSize := by
    induction cs with
    | nil => rfl
    | cons c cs ih =>
      rw [encodeChars_cons, List.length_append, length_encodeChar, ih, String.ofList_cons,
        String.utf8ByteSize_append, String.utf8ByteSize_singleton]
  rw [encode, hchars, String.ofList_toList]

/-! ## Reading is the inverse of writing -/

theorem ofNat_eq_of_toNat {b : UInt8} {n : Nat} (h : b.toNat = n) : UInt8.ofNat n = b := by
  rw [← h, UInt8.ofNat_toNat]

theorem toNat_ofNat_of_valid {n : Nat} (h : n < 0xD800 ∨ 0xDFFF < n ∧ n < 0x110000) :
    (Char.ofNat n).toNat = n := by
  have hv : n.isValidChar := h
  rw [Char.ofNat, dif_pos hv]
  rfl

/-- What the first of three bytes announces. The bounds on the second byte keep out numbers that fit
in two bytes, and surrogates. -/
structure FirstOfThree (b : UInt8) (value low high : Nat) : Prop where
  byte : b.toNat = 0xE0 + value
  small : value < 0x10
  low_ge : 0x80 ≤ low
  high_le : high ≤ 0xBF
  long : value = 0 → 0xA0 ≤ low
  scalar : value = 0xD → high ≤ 0x9F

/-- What the first of four bytes announces. The bounds on the second byte keep out numbers that fit
in three bytes, and those above U+10FFFF. -/
structure FirstOfFour (b : UInt8) (value low high : Nat) : Prop where
  byte : b.toNat = 0xF0 + value
  small : value < 5
  low_ge : 0x80 ≤ low
  high_le : high ≤ 0xBF
  long : value = 0 → 0x90 ≤ low
  scalar : value = 4 → high ≤ 0x8F

/-- The four kinds of first bytes, by the number of bytes that have to follow. -/
theorem lead_cases {b : UInt8} {value : Nat} {bounds : List (Nat × Nat)}
    (h : lead b = some (value, bounds)) :
    (bounds = [] ∧ b.toNat = value ∧ value < 0x80) ∨
    (bounds = [(0x80, 0xBF)] ∧ b.toNat = 0xC0 + value ∧ 2 ≤ value ∧ value < 0x20) ∨
    (∃ low high, bounds = [(low, high), (0x80, 0xBF)] ∧ FirstOfThree b value low high) ∨
    (∃ low high, bounds = [(low, high), (0x80, 0xBF), (0x80, 0xBF)] ∧
      FirstOfFour b value low high) := by
  unfold lead at h
  dsimp only at h
  by_cases h1 : b.toNat < 0x80
  · rw [if_pos h1, Option.some.injEq, Prod.mk.injEq] at h
    exact .inl ⟨h.2.symm, h.1, by omega⟩
  rw [if_neg h1] at h
  by_cases h2 : b.toNat < 0xE0
  · refine .inr (.inl ?_)
    split at h
    · cases h
    simp only [Option.some.injEq, Prod.mk.injEq] at h
    exact ⟨h.2.symm, by omega, by omega, by omega⟩
  rw [if_neg (by omega : ¬b.toNat < 0xC2), if_neg h2] at h
  by_cases h3 : b.toNat < 0xF0
  · -- the leads E0, ED and the others of three bytes
    refine .inr (.inr (.inl ?_))
    rw [if_pos h3] at h
    split at h
    · simp only [Option.some.injEq, Prod.mk.injEq] at h
      exact ⟨_, _, h.2.symm, by constructor <;> omega⟩
    split at h
    · simp only [Option.some.injEq, Prod.mk.injEq] at h
      exact ⟨_, _, h.2.symm, by constructor <;> omega⟩
    · simp only [Option.some.injEq, Prod.mk.injEq] at h
      exact ⟨_, _, h.2.symm, by constructor <;> omega⟩
  · -- the leads F0, F4 and the others of four bytes
    refine .inr (.inr (.inr ?_))
    rw [if_neg (by omega : ¬b.toNat = 0xE0), if_neg (by omega : ¬b.toNat = 0xED), if_neg h3] at h
    split at h
    · simp only [Option.some.injEq, Prod.mk.injEq] at h
      exact ⟨_, _, h.2.symm, by constructor <;> omega⟩
    split at h
    · simp only [Option.some.injEq, Prod.mk.injEq] at h
      exact ⟨_, _, h.2.symm, by constructor <;> omega⟩
    split at h
    · simp only [Option.some.injEq, Prod.mk.injEq] at h
      exact ⟨_, _, h.2.symm, by constructor <;> omega⟩
    · cases h

theorem encodeChar_of_one {b : UInt8} (h : b.toNat < 0x80) :
    encodeChar (Char.ofNat b.toNat) = [b] := by
  have hn := toNat_ofNat_of_valid (n := b.toNat) (by omega)
  rw [encodeChar, hn, if_pos h, ofNat_eq_of_toNat rfl]

theorem encodeChar_of_two {b b1 : UInt8} {value : Nat} (hb : b.toNat = 0xC0 + value)
    (h2 : 2 ≤ value) (hv : value < 0x20) (l1 : 0x80 ≤ b1.toNat) (u1 : b1.toNat ≤ 0xBF) :
    encodeChar (Char.ofNat (value * 64 + (b1.toNat - 0x80))) = [b, b1] := by
  obtain ⟨n, hn⟩ : ∃ n, n = value * 64 + (b1.toNat - 0x80) := ⟨_, rfl⟩
  have hc := toNat_ofNat_of_valid (n := n) (by omega)
  have e0 : UInt8.ofNat (0xC0 + n / 64) = b := ofNat_eq_of_toNat (by omega)
  have e1 : UInt8.ofNat (0x80 + n % 64) = b1 := ofNat_eq_of_toNat (by omega)
  rw [← hn, encodeChar, hc, if_neg (by omega), if_pos (by omega), e0, e1]

theorem encodeChar_of_three {b b1 b2 : UInt8} {value low high : Nat}
    (h : FirstOfThree b value low high) (l1 : low ≤ b1.toNat) (u1 : b1.toNat ≤ high)
    (l2 : 0x80 ≤ b2.toNat) (u2 : b2.toNat ≤ 0xBF) :
    encodeChar (Char.ofNat ((value * 64 + (b1.toNat - 0x80)) * 64 + (b2.toNat - 0x80))) =
      [b, b1, b2] := by
  obtain ⟨hb, hv, hlo, hhi, h0, hD⟩ := h
  obtain ⟨n, hn⟩ : ∃ n, n = (value * 64 + (b1.toNat - 0x80)) * 64 + (b2.toNat - 0x80) := ⟨_, rfl⟩
  have hc := toNat_ofNat_of_valid (n := n) (by omega)
  have e0 : UInt8.ofNat (0xE0 + n / 4096) = b := ofNat_eq_of_toNat (by omega)
  have e1 : UInt8.ofNat (0x80 + n / 64 % 64) = b1 := ofNat_eq_of_toNat (by omega)
  have e2 : UInt8.ofNat (0x80 + n % 64) = b2 := ofNat_eq_of_toNat (by omega)
  rw [← hn, encodeChar, hc, if_neg (by omega), if_neg (by omega), if_pos (by omega), e0, e1, e2]

theorem encodeChar_of_four {b b1 b2 b3 : UInt8} {value low high : Nat}
    (h : FirstOfFour b value low high) (l1 : low ≤ b1.toNat) (u1 : b1.toNat ≤ high)
    (l2 : 0x80 ≤ b2.toNat) (u2 : b2.toNat ≤ 0xBF) (l3 : 0x80 ≤ b3.toNat) (u3 : b3.toNat ≤ 0xBF) :
    encodeChar (Char.ofNat (((value * 64 + (b1.toNat - 0x80)) * 64 + (b2.toNat - 0x80)) * 64 +
      (b3.toNat - 0x80))) = [b, b1, b2, b3] := by
  obtain ⟨hb, hv, hlo, hhi, h0, h4⟩ := h
  obtain ⟨n, hn⟩ : ∃ n, n = ((value * 64 + (b1.toNat - 0x80)) * 64 + (b2.toNat - 0x80)) * 64 +
    (b3.toNat - 0x80) := ⟨_, rfl⟩
  have hc := toNat_ofNat_of_valid (n := n) (by omega)
  have e0 : UInt8.ofNat (0xF0 + n / 262144) = b := ofNat_eq_of_toNat (by omega)
  have e1 : UInt8.ofNat (0x80 + n / 4096 % 64) = b1 := ofNat_eq_of_toNat (by omega)
  have e2 : UInt8.ofNat (0x80 + n / 64 % 64) = b2 := ofNat_eq_of_toNat (by omega)
  have e3 : UInt8.ofNat (0x80 + n % 64) = b3 := ofNat_eq_of_toNat (by omega)
  rw [← hn, encodeChar, hc, if_neg (by omega), if_neg (by omega), if_neg (by omega), e0, e1, e2, e3]

theorem follow_nil_char {value seen : Nat} {bs rest : Bytes} {c : Char}
    (h : follow value seen [] bs = .char c rest) : c = Char.ofNat value ∧ bs = rest := by
  simp only [follow, Front.char.injEq] at h
  exact ⟨h.1.symm, h.2⟩

theorem follow_cons_char {value seen low high : Nat} {bounds : List (Nat × Nat)} {bs rest : Bytes}
    {c : Char} (h : follow value seen ((low, high) :: bounds) bs = .char c rest) :
    ∃ b tail, bs = b :: tail ∧ low ≤ b.toNat ∧ b.toNat ≤ high ∧
      follow (value * 64 + (b.toNat - 0x80)) (seen + 1) bounds tail = .char c rest := by
  cases bs with
  | nil => simp [follow] at h
  | cons b tail =>
    simp only [follow] at h
    split at h
    · rename_i hb
      exact ⟨b, tail, rfl, hb.1, hb.2, h⟩
    · cases h

/-- A character that is read is spelled by the bytes that were read. -/
theorem eq_encodeChar_append {bs rest : Bytes} {c : Char} (h : front bs = .char c rest) :
    bs = encodeChar c ++ rest := by
  cases bs with
  | nil => cases h
  | cons b bs =>
    simp only [front] at h
    cases hl : lead b with
    | none => rw [hl] at h; cases h
    | some p =>
      obtain ⟨value, bounds⟩ := p
      rw [hl] at h
      simp only at h
      rcases lead_cases hl with ⟨rfl, rfl, hv⟩ | ⟨rfl, hb, h2, hv⟩ | ⟨low, high, rfl, hb⟩ |
        ⟨low, high, rfl, hb⟩
      · obtain ⟨hc, rfl⟩ := follow_nil_char h
        rw [hc, encodeChar_of_one hv]
        rfl
      · obtain ⟨b1, t1, rfl, l1, u1, h⟩ := follow_cons_char h
        obtain ⟨hc, rfl⟩ := follow_nil_char h
        rw [hc, encodeChar_of_two hb h2 hv l1 u1]
        rfl
      · obtain ⟨b1, t1, rfl, l1, u1, h⟩ := follow_cons_char h
        obtain ⟨b2, t2, rfl, l2, u2, h⟩ := follow_cons_char h
        obtain ⟨hc, rfl⟩ := follow_nil_char h
        rw [hc, encodeChar_of_three hb l1 u1 l2 u2]
        rfl
      · obtain ⟨b1, t1, rfl, l1, u1, h⟩ := follow_cons_char h
        obtain ⟨b2, t2, rfl, l2, u2, h⟩ := follow_cons_char h
        obtain ⟨b3, t3, rfl, l3, u3, h⟩ := follow_cons_char h
        obtain ⟨hc, rfl⟩ := follow_nil_char h
        rw [hc, encodeChar_of_four hb l1 u1 l2 u2 l3 u3]
        rfl

theorem follow_ne_finished {value seen : Nat} {bounds : List (Nat × Nat)} {bs : Bytes} :
    follow value seen bounds bs ≠ .finished := by
  induction bounds generalizing value seen bs with
  | nil => simp [follow]
  | cons range bounds ih =>
    cases bs with
    | nil => simp [follow]
    | cons b bs =>
      simp only [follow]
      split
      · exact ih
      · simp

theorem eq_nil_of_front {bs : Bytes} (h : front bs = .finished) : bs = [] := by
  cases bs with
  | nil => rfl
  | cons b bs =>
    simp only [front] at h
    split at h
    · cases h
    · exact absurd h follow_ne_finished

theorem eq_encodeChars_of_decodeFrom {offset : Nat} {bs : Bytes} {cs : List Char}
    (h : decodeFrom offset bs = .ok cs) : bs = encodeChars cs := by
  induction cs generalizing offset bs with
  | nil =>
    rw [decodeFrom] at h
    split at h
    · rename_i hf
      exact eq_nil_of_front hf
    · split at h <;> cases h
    · cases h
    · cases h
  | cons c cs ih =>
    rw [decodeFrom] at h
    split at h
    · cases h
    · rename_i hf
      split at h
      · rename_i hrest
        cases h
        rw [eq_encodeChar_append hf, ih hrest, encodeChars_cons]
      · cases h
    · cases h
    · cases h

/-- **Bytes are read as a text exactly when they are the bytes of that text.** -/
theorem decode_eq_ok_iff {bs : Bytes} {s : String} : decode bs = .ok s ↔ bs = encode s := by
  constructor
  · intro h
    unfold decode at h
    cases hd : decodeFrom 0 bs with
    | error e => rw [hd] at h; cases h
    | ok cs =>
      rw [hd] at h
      cases h
      rw [eq_encodeChars_of_decodeFrom hd, encode, String.toList_ofList]
  · rintro rfl
    exact decode_encode s

theorem encode_injective : Function.Injective encode := by
  intro s t h
  have hs := decode_encode s
  rw [h, decode_encode, Except.ok.injEq] at hs
  exact hs.symm

/-- A text begins another one with its bytes exactly if it does with its characters. -/
theorem encodeChars_prefix_iff {cs ds : List Char} :
    encodeChars cs <+: encodeChars ds ↔ cs <+: ds := by
  constructor
  · intro h
    induction cs generalizing ds with
    | nil => exact List.nil_prefix
    | cons c cs ih =>
      obtain ⟨rest, hrest⟩ := h
      rw [encodeChars_cons, List.append_assoc] at hrest
      have hfront := front_encodeChar c (encodeChars cs ++ rest)
      rw [hrest] at hfront
      cases ds with
      | nil => cases hfront
      | cons d ds =>
        rw [encodeChars_cons, front_encodeChar, Front.char.injEq] at hfront
        obtain ⟨rfl, hds⟩ := hfront
        exact List.cons_prefix_cons.2 ⟨rfl, ih ⟨rest, hds.symm⟩⟩
  · rintro ⟨more, rfl⟩
    exact ⟨encodeChars more, (encodeChars_append cs more).symm⟩

/-! ## ASCII bytes -/

theorem encode_ne_nil {s : String} (h : s ≠ "") : encode s ≠ [] := by
  unfold encode
  cases hs : s.toList with
  | nil => exact absurd (String.toList_eq_nil_iff.1 hs) h
  | cons c cs =>
    rw [encodeChars_cons]
    exact List.append_ne_nil_of_left_ne_nil (encodeChar_ne_nil c) _

theorem ofNat_mem_encodeChar_iff {a c : Char} (ha : a.toNat < 0x80) :
    UInt8.ofNat a.toNat ∈ encodeChar c ↔ c = a := by
  have hb : (UInt8.ofNat a.toNat).toNat = a.toNat := by
    rw [UInt8.toNat_ofNat']
    omega
  constructor
  · intro h
    have hn := (encodeChar_of_mem h (by omega)).1
    rw [hb] at hn
    exact Char.toNat_inj.1 hn
  · rintro rfl
    rw [encodeChar_of_ascii ha]
    exact List.mem_singleton_self _

/-- A byte below 0x80 stands in the bytes of a text for the character with its number. -/
theorem exists_mem_of_mem_encodeChars {b : UInt8} {cs : List Char} (h : b ∈ encodeChars cs)
    (hb : b.toNat < 0x80) : ∃ c ∈ cs, c.toNat = b.toNat := by
  obtain ⟨c, hc, hbc⟩ := List.mem_flatMap.1 h
  exact ⟨c, hc, (encodeChar_of_mem hbc hb).1⟩

/-- A text holds an ASCII character exactly when its bytes hold the byte of it. -/
theorem ofNat_mem_encode_iff {a : Char} (ha : a.toNat < 0x80) (s : String) :
    UInt8.ofNat a.toNat ∈ encode s ↔ a ∈ s.toList := by
  rw [encode, encodeChars, List.mem_flatMap]
  constructor
  · rintro ⟨c, hc, h⟩
    rwa [← (ofNat_mem_encodeChar_iff ha).1 h]
  · intro h
    exact ⟨a, h, (ofNat_mem_encodeChar_iff ha).2 rfl⟩

/-- A text starts with an ASCII character exactly when its bytes start with the byte of it. -/
theorem head?_encode_eq_iff {a : Char} (ha : a.toNat < 0x80) (s : String) :
    (encode s).head? = some (UInt8.ofNat a.toNat) ↔ s.toList.head? = some a := by
  unfold encode
  cases s.toList with
  | nil => simp
  | cons c cs =>
    rw [encodeChars_cons, List.head?_append_of_ne_nil _ (encodeChar_ne_nil c), List.head?_cons,
      Option.some.injEq]
    constructor
    · intro h
      exact (ofNat_mem_encodeChar_iff ha).1 (List.mem_of_mem_head? h)
    · rintro rfl
      rw [encodeChar_of_ascii ha, List.head?_cons]

/-- A text ends with an ASCII character exactly when its bytes end with the byte of it. -/
theorem getLast?_encode_eq_iff {a : Char} (ha : a.toNat < 0x80) (s : String) :
    (encode s).getLast? = some (UInt8.ofNat a.toNat) ↔ s.toList.getLast? = some a := by
  unfold encode
  rcases List.eq_nil_or_concat s.toList with hs | ⟨cs, c, hs⟩
  · simp [hs]
  · rw [hs, List.concat_eq_append, encodeChars_append, encodeChars_cons, encodeChars_nil,
      List.append_nil, List.getLast?_append_of_ne_nil _ (encodeChar_ne_nil c),
      List.getLast?_append_of_ne_nil _ (List.cons_ne_nil c []), List.getLast?_singleton,
      Option.some.injEq]
    constructor
    · intro h
      exact (ofNat_mem_encodeChar_iff ha).1 (List.mem_of_getLast? h)
    · rintro rfl
      rw [encodeChar_of_ascii ha]
      rfl

end CompileFlags.Utf8
