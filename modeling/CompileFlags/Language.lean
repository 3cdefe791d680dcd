import CompileFlags.Text.Offset

/-!
# Languages

Which language a source file is parsed as. Only the leaf of its name counts: the last component,
where both `/` and `\` separate components and a drive such as `C:` is no part of any. A file is C
if its leaf is one of the designated names, and C++ otherwise.

The leaf is cut out of the name at byte offsets: behind the drive, and behind the last separator
that is not at the end.

* `FileName.withoutDrive?_eq`, `FileName.leaf?_eq` — the cuts always hit a boundary, and what they
  leave.
-/

namespace CompileFlags

/-- The languages a source file can be in. -/
inductive Language where
  | c
  | cpp
  deriving DecidableEq, Repr

namespace Language

/-- The name of a language. -/
def name : Language → String
  | c => "c"
  | cpp => "c++"

end Language

namespace FileName

/-! ## Cutting at byte offsets -/

/-- Whether a character separates the components of a file name. -/
def isSeparator (c : Char) : Bool := c == '/' || c == '\\'

/-- Whether a byte is an ASCII letter. -/
def isLetterByte (b : UInt8) : Bool :=
  (0x41 ≤ b && b ≤ 0x5A) || (0x61 ≤ b && b ≤ 0x7A)

/-- Whether bytes start with a drive: a letter and a colon. -/
def startsWithDrive : Bytes → Bool
  | letter :: colon :: _ => colon == 0x3A && isLetterByte letter
  | _ => false

/-- A file name cut behind the drive it starts with, if any. -/
def withoutDrive? (cs : List Char) : Option (List Char) :=
  if startsWithDrive (Utf8.encodeChars cs) then Text.dropBytes? 2 cs else some cs

/-- A file name without the separators at its end. -/
def trimEnd (cs : List Char) : List Char := (cs.reverse.dropWhile isSeparator).reverse

/-- Where the last separator of a file name starts, in bytes. -/
def lastSeparator? (cs : List Char) : Option Nat :=
  match cs.reverse.dropWhile fun c => !isSeparator c with
  | [] => none
  | _ :: before => some (Utf8.encodeChars before.reverse).length

/-- A file name cut behind its last separator, if it has one. -/
def lastComponent? (cs : List Char) : Option (List Char) :=
  match lastSeparator? cs with
  | none => some cs
  | some i => Text.dropBytes? (i + 1) cs

/-- The last component of a file name, which separators at the end do not close. -/
def leaf? (cs : List Char) : Option (List Char) :=
  (withoutDrive? cs).bind fun path => lastComponent? (trimEnd path)

/-! ## What the cuts leave -/

/-- A file name without the drive it starts with, if any. -/
def withoutDriveChars : List Char → List Char
  | letter :: ':' :: rest => if letter.isAlpha then rest else letter :: ':' :: rest
  | cs => cs

/-- The last component of a file name without a drive; separators at its end do not count. -/
def leafChars (cs : List Char) : List Char :=
  ((cs.reverse.dropWhile isSeparator).takeWhile fun c => !isSeparator c).reverse

theorem isLetterByte_ofNat {c : Char} (h : c.toNat < 0x80) :
    isLetterByte (UInt8.ofNat c.toNat) = c.isAlpha := by
  have hall : ∀ n < 0x80, isLetterByte (UInt8.ofNat n) = (Char.ofNat n).isAlpha := by decide
  rw [hall c.toNat h, Char.ofNat_toNat]

theorem toNat_lt_of_isLetterByte {b : UInt8} (h : isLetterByte b = true) : b.toNat < 0x80 := by
  simp only [isLetterByte, Bool.or_eq_true, Bool.and_eq_true, decide_eq_true_eq,
    UInt8.le_iff_toNat_le] at h
  have : (0x5A : UInt8).toNat = 0x5A := rfl
  have : (0x7A : UInt8).toNat = 0x7A := rfl
  omega

theorem toNat_lt_of_isAlpha {c : Char} (h : c.isAlpha = true) : c.toNat < 0x80 := by
  have h : (decide ('A'.val ≤ c.val ∧ c.val ≤ 'Z'.val) ||
      (decide ('a'.val ≤ c.val) && decide (c.val ≤ 'z'.val))) = true := h
  simp only [Bool.or_eq_true, Bool.and_eq_true, decide_eq_true_eq] at h
  rcases h with ⟨-, h⟩ | ⟨-, h⟩ <;> exact Nat.lt_of_le_of_lt h (by decide)

/-- The bytes of a drive are the two characters of it. -/
theorem startsWithDrive_encodeChars_iff {cs : List Char} :
    startsWithDrive (Utf8.encodeChars cs) = true ↔
      ∃ letter rest, letter.isAlpha = true ∧ cs = letter :: ':' :: rest := by
  constructor
  · intro h
    unfold startsWithDrive at h
    split at h
    · rename_i b colon bs hbs
      rw [Bool.and_eq_true, beq_iff_eq] at h
      obtain ⟨rfl, hb⟩ := h
      have hlt := toNat_lt_of_isLetterByte hb
      obtain ⟨letter, more, rfl, hletter, hmore⟩ :=
        Utf8.exists_cons_of_encodeChars_eq_cons hbs hlt
      obtain ⟨colon, rest, rfl, hcolon, -⟩ :=
        Utf8.exists_cons_of_encodeChars_eq_cons hmore (by decide)
      refine ⟨letter, rest, ?_, ?_⟩
      · rw [← isLetterByte_ofNat (by omega), hletter, UInt8.ofNat_toNat, hb]
      · have hc : colon = ':' := Char.toNat_inj.1 hcolon
        rw [hc]
    · cases h
  · rintro ⟨letter, rest, hl, rfl⟩
    have hlt := toNat_lt_of_isAlpha hl
    rw [Utf8.encodeChars_cons, Utf8.encodeChar_of_ascii hlt]
    exact (isLetterByte_ofNat hlt).trans hl

theorem withoutDriveChars_cases (cs : List Char) :
    (∃ letter rest, letter.isAlpha = true ∧ cs = letter :: ':' :: rest ∧
      withoutDriveChars cs = rest) ∨
    ((¬∃ letter rest, letter.isAlpha = true ∧ cs = letter :: ':' :: rest) ∧
      withoutDriveChars cs = cs) := by
  unfold withoutDriveChars
  split
  · rename_i letter rest
    split
    · rename_i h
      exact .inl ⟨letter, rest, h, rfl, rfl⟩
    · rename_i h
      refine .inr ⟨?_, rfl⟩
      rintro ⟨letter', rest', h', heq⟩
      simp only [List.cons.injEq, true_and] at heq
      exact h (heq.1 ▸ h')
  · rename_i h
    refine .inr ⟨?_, rfl⟩
    rintro ⟨letter, rest, -, rfl⟩
    exact h letter rest rfl

/-- The cut behind a drive hits a boundary. -/
theorem withoutDrive?_eq (cs : List Char) : withoutDrive? cs = some (withoutDriveChars cs) := by
  unfold withoutDrive?
  rcases withoutDriveChars_cases cs with ⟨letter, rest, hl, rfl, hw⟩ | ⟨hno, hw⟩
  · have hlen : (Utf8.encodeChars [letter, ':']).length = 2 := by
      rw [Utf8.encodeChars_cons, Utf8.encodeChar_of_ascii (toNat_lt_of_isAlpha hl)]
      rfl
    rw [if_pos (startsWithDrive_encodeChars_iff.2 ⟨letter, rest, hl, rfl⟩), hw, ← hlen]
    exact Text.dropBytes?_append [letter, ':'] rest
  · rw [if_neg fun h => hno (startsWithDrive_encodeChars_iff.1 h), hw]

theorem isSeparator_iff {c : Char} : isSeparator c = true ↔ c = '/' ∨ c = '\\' := by
  simp [isSeparator]

theorem isSeparator_eq_false_iff {c : Char} : isSeparator c = false ↔ c ≠ '/' ∧ c ≠ '\\' := by
  simp [isSeparator]

/-- A separator is one byte. -/
theorem length_encodeChar_of_isSeparator {c : Char} (h : isSeparator c = true) :
    (Utf8.encodeChar c).length = 1 := by
  rcases isSeparator_iff.1 h with rfl | rfl <;> rfl

/-- A file name with a separator is cut in front of the last one, where its offset is, and behind
it. -/
theorem lastSeparator?_cases (cs : List Char) :
    (lastSeparator? cs = none ∧ cs = (cs.reverse.takeWhile fun c => !isSeparator c).reverse) ∨
    ∃ before sep, isSeparator sep = true ∧
      cs = before ++ [sep] ++ (cs.reverse.takeWhile fun c => !isSeparator c).reverse ∧
      lastSeparator? cs = some (Utf8.encodeChars before).length := by
  obtain ⟨isPlain, hp⟩ : ∃ p, p = fun c => !isSeparator c := ⟨_, rfl⟩
  have hcs : cs = (cs.reverse.dropWhile isPlain).reverse ++
      (cs.reverse.takeWhile isPlain).reverse := by
    rw [← List.reverse_append, List.takeWhile_append_dropWhile, List.reverse_reverse]
  rw [lastSeparator?, ← hp]
  cases hd : cs.reverse.dropWhile isPlain with
  | nil =>
    rw [hd] at hcs
    exact .inl ⟨rfl, hcs⟩
  | cons sep before =>
    have hhead := List.head?_dropWhile_not isPlain cs.reverse
    rw [hd] at hhead
    have hsep : isSeparator sep = true := by simpa [hp] using hhead
    rw [hd, List.reverse_cons] at hcs
    exact .inr ⟨before.reverse, sep, hsep, hcs, rfl⟩

/-- The cut behind the last separator hits a boundary. -/
theorem lastComponent?_eq (cs : List Char) :
    lastComponent? cs = some (cs.reverse.takeWhile fun c => !isSeparator c).reverse := by
  unfold lastComponent?
  rcases lastSeparator?_cases cs with ⟨hnone, hcs⟩ | ⟨before, sep, hsep, hcs, hsome⟩
  · rw [hnone, ← hcs]
  · rw [hsome]
    refine Text.dropBytes?_eq_some_iff.2 ⟨before ++ [sep], hcs, ?_⟩
    rw [Utf8.encodeChars_append, List.length_append, Utf8.encodeChars_cons, Utf8.encodeChars_nil,
      List.append_nil, length_encodeChar_of_isSeparator hsep]

theorem leaf?_eq (cs : List Char) : leaf? cs = some (leafChars (withoutDriveChars cs)) := by
  rw [leaf?, withoutDrive?_eq, Option.bind_some, lastComponent?_eq, trimEnd, List.reverse_reverse,
    leafChars]

theorem isSome_withoutDrive? (cs : List Char) : (withoutDrive? cs).isSome = true := by
  rw [withoutDrive?_eq, Option.isSome_some]

theorem isSome_leaf? (cs : List Char) : (leaf? cs).isSome = true := by
  rw [leaf?_eq, Option.isSome_some]

/-! ## Leaves -/

/-- A file name without the drive it starts with, if any. -/
def withoutDrive (file : String) : String :=
  .ofList ((withoutDrive? file.toList).get (isSome_withoutDrive? _))

/-- The last component of a file name. -/
def leaf (file : String) : String := .ofList ((leaf? file.toList).get (isSome_leaf? _))

theorem withoutDrive_eq (file : String) :
    withoutDrive file = .ofList (withoutDriveChars file.toList) := by
  simp only [withoutDrive, withoutDrive?_eq, Option.get_some]

theorem leaf_eq (file : String) :
    leaf file = .ofList (leafChars (withoutDriveChars file.toList)) := by
  simp only [leaf, leaf?_eq, Option.get_some]

end FileName

/-- The language of a file, given the names that designate C. -/
def Language.ofFile (file : String) (cFiles : List String) : Language :=
  if cFiles.contains (FileName.leaf file) then .c else .cpp

/-- A file is C exactly if its leaf is a designated name. -/
theorem Language.ofFile_eq_c_iff {file : String} {cFiles : List String} :
    Language.ofFile file cFiles = .c ↔ FileName.leaf file ∈ cFiles := by
  simp [Language.ofFile]

end CompileFlags
