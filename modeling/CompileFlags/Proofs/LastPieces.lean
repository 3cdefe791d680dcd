import CompileFlags.Language
import CompileFlags.Proofs.Encoding
import CompileFlags.Proofs.Lines

/-!
# The last piece of a file name

A file name is bytes. Behind the drive, if it starts with one, it is cut at every byte of `/` and of
`\`, and the last of the pieces that is not empty is what the designated names are compared with.
The name itself is searched from its end, and cut at the offset of one separator.

* `lastPiece_append_of_forall`, `lastPiece_append_cons` — the last piece that is not empty, by what
  stands at the end.
* `FileName.lastPiece_eq_leafChars` — searching from the end finds the last piece.
* `FileName.encode_leaf` — the bytes of the leaf are the last piece of the bytes of the name.
* `FileName.leaf_append_separators` — separators at the end do not change the leaf.
* `Language.ofFile_by_last_piece` — the language of a file, by the bytes of its name.
-/

namespace CompileFlags

/-! ## Last pieces -/

section

variable {α : Type} {isSep : α → Bool}

/-- The last piece between separators that is not empty, or the empty one if there is none. -/
def lastPiece (isSep : α → Bool) (l : List α) : List α :=
  ((pieces isSep l).filter (!·.isEmpty)).getLast?.getD []

/-- A separator at the end starts only an empty piece. -/
theorem lastPiece_append_of_forall {after : List α} (h : ∀ a ∈ after, isSep a = true)
    (l : List α) : lastPiece isSep (l ++ after) = lastPiece isSep l := by
  induction after generalizing l with
  | nil => rw [List.append_nil]
  | cons s after ih =>
    have hs := h s List.mem_cons_self
    have hone : lastPiece isSep (l ++ [s]) = lastPiece isSep l := by
      rw [lastPiece, pieces_append_cons hs]
      simp [pieces, lastPiece]
    rw [← List.singleton_append, ← List.append_assoc,
      ih (fun a ha => h a (List.mem_cons_of_mem _ ha)), hone]

theorem lastPiece_of_forall_not {l : List α} (h : ∀ a ∈ l, isSep a = false) :
    lastPiece isSep l = l := by
  rw [lastPiece, pieces_of_forall_not h]
  cases l <;> rfl

/-- What stands behind a separator and holds none is the last piece. -/
theorem lastPiece_append_cons {s : α} (hs : isSep s = true) (before : List α) {name : List α}
    (hne : name ≠ []) (h : ∀ a ∈ name, isSep a = false) :
    lastPiece isSep (before ++ s :: name) = name := by
  rw [lastPiece, pieces_append_cons hs, pieces_of_forall_not h, List.filter_append,
    List.filter_cons_of_pos (by simpa using hne)]
  simp

end

/-- The last piece of the bytes of a text is the last piece of its characters. -/
theorem lastPiece_encodeChars {isSep : Char → Bool} {isSepByte : UInt8 → Bool}
    (hsep : ∀ c, isSep c = true → ∃ b, isSepByte b = true ∧ Utf8.encodeChar c = [b])
    (hplain : ∀ c, isSep c = false → ∀ b ∈ Utf8.encodeChar c, isSepByte b = false)
    (cs : List Char) :
    lastPiece isSepByte (Utf8.encodeChars cs) = Utf8.encodeChars (lastPiece isSep cs) := by
  have hempty : (fun bs : Bytes => !bs.isEmpty) ∘ Utf8.encodeChars =
      fun piece : List Char => !piece.isEmpty := by
    funext piece
    cases piece with
    | nil => rfl
    | cons c piece => simp [Utf8.encodeChar_ne_nil]
  rw [lastPiece, lastPiece, pieces_encodeChars hsep hplain, List.filter_map, hempty,
    List.getLast?_map]
  cases ((pieces isSep cs).filter fun piece => !piece.isEmpty).getLast? <;> rfl

namespace FileName

/-! ## Searching from the end -/

theorem trimEnd_append (cs : List Char) :
    ∃ after, (∀ c ∈ after, isSeparator c = true) ∧ cs = trimEnd cs ++ after := by
  refine ⟨(cs.reverse.takeWhile isSeparator).reverse, ?_, ?_⟩
  · intro c hc
    exact List.mem_takeWhile_imp (List.mem_reverse.1 hc)
  · rw [trimEnd, ← List.reverse_append, List.takeWhile_append_dropWhile, List.reverse_reverse]

theorem trimEnd_ne_append_separator (cs before : List Char) {sep : Char}
    (hsep : isSeparator sep = true) : trimEnd cs ≠ before ++ [sep] := by
  intro h
  have hd : cs.reverse.dropWhile isSeparator = sep :: before.reverse := by
    rw [← List.reverse_reverse (cs.reverse.dropWhile isSeparator), ← trimEnd, h,
      List.reverse_concat]
  have hhead := List.head?_dropWhile_not isSeparator cs.reverse
  rw [hd] at hhead
  exact absurd hsep (by simpa using hhead)

theorem isSeparator_of_mem_leafChars {cs : List Char} {c : Char} (h : c ∈ leafChars cs) :
    isSeparator c = false := by
  have := List.mem_takeWhile_imp (List.mem_reverse.1 h)
  simpa using this

/-- Searching from the end finds the last piece. -/
theorem lastPiece_eq_leafChars (cs : List Char) : lastPiece isSeparator cs = leafChars cs := by
  have hplain : ∀ c ∈ leafChars cs, isSeparator c = false :=
    fun c hc => isSeparator_of_mem_leafChars hc
  have hleaf : ((trimEnd cs).reverse.takeWhile fun c => !isSeparator c).reverse = leafChars cs := by
    rw [trimEnd, List.reverse_reverse, leafChars]
  obtain ⟨after, hafter, hcs⟩ := trimEnd_append cs
  have htrim : lastPiece isSeparator cs = lastPiece isSeparator (trimEnd cs) := by
    conv_lhs => rw [hcs]
    exact lastPiece_append_of_forall hafter _
  rcases lastSeparator?_cases (trimEnd cs) with ⟨-, ht⟩ | ⟨before, sep, hsep, ht, -⟩
  · rw [hleaf] at ht
    rw [htrim, ht, lastPiece_of_forall_not hplain]
  · rw [hleaf] at ht
    have hne : leafChars cs ≠ [] := by
      intro h
      rw [h, List.append_nil] at ht
      exact trimEnd_ne_append_separator cs before hsep ht
    rw [htrim, ht, List.append_assoc, List.singleton_append,
      lastPiece_append_cons hsep before hne hplain]

/-! ## The bytes of a leaf -/

/-- Whether a byte is `/` or `\`. -/
def isSeparatorByte (b : UInt8) : Bool := b == 0x2F || b == 0x5C

/-- Bytes without the first two, if these are an ASCII letter and a colon. -/
def behindDrive (bs : Bytes) : Bytes := if startsWithDrive bs then bs.drop 2 else bs

theorem lastPiece_isSeparatorByte (cs : List Char) :
    lastPiece isSeparatorByte (Utf8.encodeChars cs) = Utf8.encodeChars (leafChars cs) := by
  rw [← lastPiece_eq_leafChars]
  apply lastPiece_encodeChars
  · intro c hc
    rcases isSeparator_iff.1 hc with rfl | rfl
    · exact ⟨0x2F, rfl, rfl⟩
    · exact ⟨0x5C, rfl, rfl⟩
  · intro c hc b hb
    obtain ⟨hslash, hbackslash⟩ := isSeparator_eq_false_iff.1 hc
    rw [isSeparatorByte, Bool.or_eq_false_iff, beq_eq_false_iff_ne, beq_eq_false_iff_ne]
    constructor
    · rintro rfl
      exact hslash ((Utf8.ofNat_mem_encodeChar_iff (a := '/') (by decide)).1 hb)
    · rintro rfl
      exact hbackslash ((Utf8.ofNat_mem_encodeChar_iff (a := '\\') (by decide)).1 hb)

theorem behindDrive_encodeChars (cs : List Char) :
    behindDrive (Utf8.encodeChars cs) = Utf8.encodeChars (withoutDriveChars cs) := by
  unfold behindDrive
  rcases withoutDriveChars_cases cs with ⟨letter, rest, hl, rfl, hw⟩ | ⟨hno, hw⟩
  · rw [if_pos (startsWithDrive_encodeChars_iff.2 ⟨letter, rest, hl, rfl⟩), hw,
      Utf8.encodeChars_cons, Utf8.encodeChar_of_ascii (toNat_lt_of_isAlpha hl)]
    rfl
  · rw [if_neg fun h => hno (startsWithDrive_encodeChars_iff.1 h), hw]

/-- **The bytes of the leaf are the last piece of the bytes of the name.** -/
theorem encode_leaf (file : String) :
    Utf8.encode (leaf file) = lastPiece isSeparatorByte (behindDrive (Utf8.encode file)) := by
  rw [leaf_eq, Utf8.encode, String.toList_ofList, Utf8.encode, behindDrive_encodeChars,
    lastPiece_isSeparatorByte]

/-! ## Separators at the end -/

/-- Separators do not make a drive of what they stand behind. -/
theorem startsWithDrive_append {after : Bytes} (h : ∀ b ∈ after, isSeparatorByte b = true)
    (bs : Bytes) : startsWithDrive (bs ++ after) = startsWithDrive bs := by
  have hfirst : ∀ b ∈ after, isLetterByte b = false ∧ (b == 0x3A) = false := by
    intro b hb
    have hsep := h b hb
    rw [isSeparatorByte, Bool.or_eq_true, beq_iff_eq, beq_iff_eq] at hsep
    rcases hsep with rfl | rfl <;> decide
  match bs, after with
  | _ :: _ :: _, _ | [_], [] | [], [] | [], [_] => rfl
  | [letter], b :: _ =>
    show (b == 0x3A && isLetterByte letter) = false
    rw [(hfirst b List.mem_cons_self).2, Bool.false_and]
  | [], b :: colon :: _ =>
    show (colon == 0x3A && isLetterByte b) = false
    rw [(hfirst b List.mem_cons_self).1, Bool.and_false]

theorem behindDrive_append {after : Bytes} (h : ∀ b ∈ after, isSeparatorByte b = true)
    (bs : Bytes) : behindDrive (bs ++ after) = behindDrive bs ++ after := by
  rw [behindDrive, startsWithDrive_append h, behindDrive]
  cases hd : startsWithDrive bs with
  | false => rfl
  | true =>
    match bs, hd with
    | _ :: _ :: _, _ => rfl

/-- Separators at the end do not change the leaf. -/
theorem leaf_append_separators (file : String) {seps : String}
    (h : ∀ c ∈ seps.toList, isSeparator c = true) : leaf (file ++ seps) = leaf file := by
  have hbytes : ∀ b ∈ Utf8.encode seps, isSeparatorByte b = true := by
    intro b hb
    obtain ⟨c, hc, hbc⟩ := List.mem_flatMap.1 hb
    rcases isSeparator_iff.1 (h c hc) with rfl | rfl <;>
      exact List.mem_singleton.1 hbc ▸ rfl
  apply Utf8.encode_injective
  rw [encode_leaf, encode_leaf, Utf8.encode_append, behindDrive_append hbytes,
    lastPiece_append_of_forall hbytes]

/-! ## The cuts -/

/-- Behind a drive is a boundary. -/
theorem isBoundary_of_startsWithDrive {cs : List Char}
    (h : startsWithDrive (Utf8.encodeChars cs) = true) : Text.IsBoundary 2 cs := by
  have hcut := withoutDrive?_eq cs
  rw [withoutDrive?, if_pos h] at hcut
  exact Text.isSome_dropBytes?_iff.1 (Option.isSome_of_eq_some hcut)

/-- Behind the last separator is a boundary. -/
theorem isBoundary_of_lastSeparator? {cs : List Char} {i : Nat} (h : lastSeparator? cs = some i) :
    Text.IsBoundary (i + 1) cs := by
  have hcut := lastComponent?_eq cs
  rw [lastComponent?, h] at hcut
  exact Text.isSome_dropBytes?_iff.1 (Option.isSome_of_eq_some hcut)

end FileName

open FileName

/-- **The language of a file is decided by the last piece of its name.** It is C exactly if a
designated name has the same bytes as the last piece, behind the drive, that is not empty. Every cut
on the way to it is in range and on the boundary of a character, no separator is left in it, and
separators at the end of the name do not change it. -/
theorem Language.ofFile_by_last_piece (file : String) :
    (∀ cFiles, Language.ofFile file cFiles = .c ↔
      ∃ name ∈ cFiles,
        Utf8.encode name = lastPiece isSeparatorByte (behindDrive (Utf8.encode file))) ∧
    (startsWithDrive (Utf8.encode file) = true → Text.IsBoundary 2 file.toList) ∧
    (∀ path i, withoutDrive? file.toList = some path → lastSeparator? (trimEnd path) = some i →
      Text.IsBoundary (i + 1) (trimEnd path)) ∧
    leaf? file.toList = some (leaf file).toList ∧
    (∀ c ∈ (leaf file).toList, c ≠ '/' ∧ c ≠ '\\') ∧
    ∀ seps : String, (∀ c ∈ seps.toList, c = '/' ∨ c = '\\') →
      leaf (file ++ seps) = leaf file := by
  have hchars : (leaf file).toList = leafChars (withoutDriveChars file.toList) := by
    rw [leaf_eq, String.toList_ofList]
  refine ⟨?_, isBoundary_of_startsWithDrive, ?_, ?_, ?_, ?_⟩
  · intro cFiles
    rw [Language.ofFile_eq_c_iff, ← encode_leaf]
    constructor
    · intro h
      exact ⟨_, h, rfl⟩
    · rintro ⟨name, hname, heq⟩
      exact Utf8.encode_injective heq ▸ hname
  · intro path i _ hi
    exact isBoundary_of_lastSeparator? hi
  · rw [leaf?_eq, hchars]
  · intro c hc
    rw [hchars] at hc
    exact isSeparator_eq_false_iff.1 (isSeparator_of_mem_leafChars hc)
  · intro seps hseps
    exact leaf_append_separators file fun c hc => isSeparator_iff.2 (hseps c hc)

/-- Only the first of two drives is cut off, and offsets count the bytes of what is in front. -/
theorem Language.ofFile_on_two_drives :
    Language.ofFile "C:D:λ/日\\" ["日"] = .c ∧
    Text.IsBoundary 2 "C:D:λ/日\\".toList ∧
    Text.IsBoundary 5 (trimEnd "D:λ/日\\".toList) ∧
    leaf ("C:D:λ/日\\" ++ "/\\") = leaf "C:D:λ/日\\" := by
  obtain ⟨hc, hdrive, hlast, -, -, hseps⟩ := Language.ofFile_by_last_piece "C:D:λ/日\\"
  exact ⟨(hc _).2 ⟨"日", by decide, by decide⟩, hdrive (by decide),
    hlast "D:λ/日\\".toList 4 (by decide) (by decide), hseps "/\\" (by simp)⟩

end CompileFlags
