import CompileFlags.Proofs.Absorption
import CompileFlags.Proofs.Discovery

/-!
# Joining to a root loses nothing

Paths are bytes, and flags are texts. A root that comes of a directory is an absolute path and a
text, so what a text becomes when it is joined to the root is again a text, byte for byte.

* `Surroundings.absoluteBytes` — how an absolute path is spelled.
* `Root.ofDirectory_eq_ok_iff`, `Root.exists_ofDirectory_eq_error_iff` — which directories are
  roots.
* `Root.join_injective` — what is joined to a root can be told from the result.
* `Root.join_loses_nothing` — roots and what is joined to them.
-/

namespace CompileFlags

open CompileFlags.Path (IsText)

/-! ## Absolute paths -/

namespace Surroundings

/-- The bytes of a path seen from the current directory: the path itself if it starts with a slash,
and else the current directory, a slash unless it ends with one, and the path. -/
def absoluteBytes (s : Surroundings) (p : Bytes) : Except IoError Bytes :=
  if p.head? = some Path.slash then .ok p
  else s.currentDirectory.map fun here =>
    if here.bytes.getLast? = some Path.slash then here.bytes ++ p
    else here.bytes ++ [Path.slash] ++ p

variable {s : Surroundings} {p bs : Bytes} {e : IoError}

theorem absoluteBytes_eq_error_iff :
    s.absoluteBytes p = .error e ↔ p.head? ≠ some Path.slash ∧ s.currentDirectory = .error e := by
  unfold absoluteBytes
  by_cases hp : p.head? = some Path.slash
  · rw [if_pos hp]
    constructor
    · intro h
      cases h
    · rintro ⟨hne, -⟩
      exact absurd hp hne
  · rw [if_neg hp]
    cases s.currentDirectory with
    | ok here =>
      constructor
      · intro h
        cases h
      · rintro ⟨-, h⟩
        cases h
    | error e' =>
      constructor
      · intro h
        cases h
        exact ⟨hp, rfl⟩
      · rintro ⟨-, h⟩
        cases h
        rfl

theorem isAbsolute_ofBytes_iff :
    (Path.ofBytes p).isAbsolute = true ↔ p.head? = some Path.slash := by
  rw [Path.isAbsolute_iff, Path.bytes_ofBytes]

theorem absolute_of_absoluteBytes_error (h : s.absoluteBytes p = .error e) :
    s.absolute (.ofBytes p) = .error ⟨[.workingDirectory], .io e⟩ := by
  obtain ⟨hp, he⟩ := absoluteBytes_eq_error_iff.1 h
  rw [absolute, if_neg (fun habs => hp (isAbsolute_ofBytes_iff.1 habs)), he]
  rfl

theorem absolute_of_absoluteBytes_ok (hs : s.HasAbsoluteDirectory)
    (h : s.absoluteBytes p = .ok bs) : s.absolute (.ofBytes p) = .ok (.ofBytes bs) := by
  rw [absoluteBytes] at h
  by_cases hp : p.head? = some Path.slash
  · rw [if_pos hp] at h
    cases h
    rw [absolute, if_pos (isAbsolute_ofBytes_iff.2 hp)]
  · have hrel : (Path.ofBytes p).isAbsolute = false :=
      Bool.eq_false_iff.2 fun habs => hp (isAbsolute_ofBytes_iff.1 habs)
    rw [if_neg hp] at h
    obtain ⟨here, hhere, rfl⟩ := exists_of_map_eq_ok h
    have hne : here.bytes ≠ [] := by
      intro hnil
      have hhead := (Path.isAbsolute_iff here).1 (hs here hhere)
      rw [hnil] at hhead
      cases hhead
    have hjoin := Path.bytes_join hne hrel
    rw [Path.bytes_ofBytes] at hjoin
    rw [absolute, if_neg (by rw [hrel]; exact Bool.false_ne_true), hhere]
    show Except.ok (here.join (.ofBytes p)) = _
    rw [← Path.ofBytes_bytes (here.join (.ofBytes p)), hjoin]
    split
    · rw [List.append_nil]
    · rfl

end Surroundings

/-! ## Roots -/

namespace Root

variable {s : Surroundings} {dir : Bytes} {r : Root}

theorem ofDirectory_of_absoluteBytes_error {e : IoError} (h : s.absoluteBytes dir = .error e) :
    ofDirectory s (.ofBytes dir) = .error ⟨[.workingDirectory], .io e⟩ := by
  simp only [ofDirectory, Surroundings.absolute_of_absoluteBytes_error h, bind, Except.bind]

theorem ofDirectory_of_encode (hs : s.HasAbsoluteDirectory)
    (h : s.absoluteBytes dir = .ok (Utf8.encode r.text)) :
    ofDirectory s (.ofBytes dir) = .ok r := by
  simp only [ofDirectory, Surroundings.absolute_of_absoluteBytes_ok hs h, bind, Except.bind,
    Path.bytes_ofBytes, Utf8.decode_encode]

theorem ofDirectory_of_absoluteBytes_not_isText (hs : s.HasAbsoluteDirectory) {bs : Bytes}
    (h : s.absoluteBytes dir = .ok bs) (ht : ¬IsText bs) :
    ofDirectory s (.ofBytes dir) = .error (.ofComplaint (.rootNotText (.ofBytes bs))) := by
  refine ofDirectory_of_not_isText s (Surroundings.absolute_of_absoluteBytes_ok hs h) ?_
  rwa [← Path.isText_bytes_iff, Path.bytes_ofBytes]

/-- A directory is a root exactly if its absolute path is a text, which is that of the root. -/
theorem ofDirectory_eq_ok_iff (hs : s.HasAbsoluteDirectory) :
    ofDirectory s (.ofBytes dir) = .ok r ↔ s.absoluteBytes dir = .ok (Utf8.encode r.text) := by
  refine ⟨?_, ofDirectory_of_encode hs⟩
  intro hr
  cases h : s.absoluteBytes dir with
  | error e =>
    rw [ofDirectory_of_absoluteBytes_error h] at hr
    cases hr
  | ok bs =>
    by_cases ht : IsText bs
    · obtain ⟨text, rfl⟩ := ht
      rw [ofDirectory_of_encode (r := ⟨text⟩) hs h] at hr
      cases hr
      rfl
    · rw [ofDirectory_of_absoluteBytes_not_isText hs h ht] at hr
      cases hr

/-- A directory is no root exactly if its absolute path is not known, or is no text. -/
theorem exists_ofDirectory_eq_error_iff (hs : s.HasAbsoluteDirectory) :
    (∃ f, ofDirectory s (.ofBytes dir) = .error f) ↔
      (dir.head? ≠ some Path.slash ∧ ∃ e, s.currentDirectory = .error e) ∨
        ∃ bs, s.absoluteBytes dir = .ok bs ∧ ¬IsText bs := by
  constructor
  · rintro ⟨f, hf⟩
    cases h : s.absoluteBytes dir with
    | error e =>
      obtain ⟨hdir, he⟩ := Surroundings.absoluteBytes_eq_error_iff.1 h
      exact .inl ⟨hdir, e, he⟩
    | ok bs =>
      refine .inr ⟨bs, rfl, ?_⟩
      rintro ⟨text, rfl⟩
      rw [ofDirectory_of_encode (r := ⟨text⟩) hs h] at hf
      cases hf
  · rintro (⟨hdir, e, he⟩ | ⟨bs, h, ht⟩)
    · exact ⟨_, ofDirectory_of_absoluteBytes_error
        (Surroundings.absoluteBytes_eq_error_iff.2 ⟨hdir, he⟩)⟩
    · exact ⟨_, ofDirectory_of_absoluteBytes_not_isText hs h ht⟩

/-! ## Joining -/

/-- The bytes of what is joined to a root are read back without a loss. -/
theorem encode_join (r : Root) (p : String) :
    Utf8.encode (r.join p) = (r.path.join (.ofString p)).bytes := by
  rw [← Root.ofString_join, Path.ofString, Path.bytes_ofBytes]

/-- Relative paths can be told from what they become. -/
theorem join_injective (hr : r.text ≠ "") {p q : String} (hp : p.toList.head? ≠ some '/')
    (hq : q.toList.head? ≠ some '/') (h : r.join p = r.join q) : p = q := by
  rw [join_eq_resolved hr, join_eq_resolved hr, resolved, resolved, if_neg hp, if_neg hq] at h
  split at h
  · exact (String.append_right_inj _).1 h
  · exact (String.append_right_inj _).1 h

/-- **Joining to a root loses nothing.** A directory, in any bytes, is no root exactly if it is
relative and the current directory is not known, or if its absolute path is no text; otherwise that
text is the root. Every root, of a directory or of the directory that holds a file, starts with a
slash, so under it paths are always rewritten. What is joined to it is joined as a text: the bytes
of the joined path are those of the text that comes of it, the result is absolute, and different
relative paths have different results. -/
theorem join_loses_nothing (hs : s.HasAbsoluteDirectory) :
    (∀ dir : Bytes,
      ((∃ f, ofDirectory s (.ofBytes dir) = .error f) ↔
        (dir.head? ≠ some Path.slash ∧ ∃ e, s.currentDirectory = .error e) ∨
          ∃ bs, s.absoluteBytes dir = .ok bs ∧ ¬IsText bs) ∧
      ∀ r, ofDirectory s (.ofBytes dir) = .ok r ↔
        s.absoluteBytes dir = .ok (Utf8.encode r.text)) ∧
    ∀ r, (∃ dir, ofDirectory s dir = .ok r) ∨ (∃ file, containing s file = .ok r) →
      r.text.toList.head? = some '/' ∧ r.isEmpty = false ∧
      (∀ flags, normalize flags (some r) = (rewrites r false flags).map Rewrite.result) ∧
      (∀ p, r.join p = r.resolved p ∧
        Utf8.encode (r.join p) = (r.path.join (.ofString p)).bytes ∧
        (r.join p).toList.head? = some '/') ∧
      ∀ p q, p.toList.head? ≠ some '/' → q.toList.head? ≠ some '/' →
        r.join p = r.join q → p = q := by
  refine ⟨fun dir => ⟨exists_ofDirectory_eq_error_iff hs, fun r => ofDirectory_eq_ok_iff hs⟩, ?_⟩
  intro r hr
  have habs : r.IsAbsolute := by
    rcases hr with ⟨dir, h⟩ | ⟨file, h⟩
    · exact isAbsolute_of_ofDirectory hs h
    · exact isAbsolute_of_containing hs h
  have hne := habs.text_ne_empty
  have hempty : r.isEmpty = false := by
    rw [isEmpty, ← Bool.not_eq_true, String.isEmpty_iff]
    exact hne
  refine ⟨habs, hempty, fun flags => normalize_of_text_ne_empty flags hne, ?_, ?_⟩
  · intro p
    exact ⟨join_eq_resolved hne p, encode_join r p, habs.head?_join p⟩
  · intro p q hp hq
    exact join_injective hne hp hq

/-- A tree of files with one directory, whose name is no text and which is the one to work in. -/
def unspelledDirectory : Workplace where
  tree := .directory [([0xFF], .directory [])]
  current := [[0xFF]]

theorem absoluteBytes_empty_unspelledDirectory :
    unspelledDirectory.surroundings.absoluteBytes [] = .ok [0x2F, 0xFF, 0x2F] := by decide +kernel

/-- In a directory whose name is no text, the empty path is no root. An absolute path is one,
however many slashes it ends with, and even the empty path is joined to it without a loss. -/
theorem join_in_unspelled_directory :
    unspelledDirectory.surroundings.HasAbsoluteDirectory ∧
      (∃ f, ofDirectory unspelledDirectory.surroundings (.ofBytes []) = .error f) ∧
      ofDirectory unspelledDirectory.surroundings (.ofString "//π//") = .ok ⟨"//π//"⟩ ∧
      (⟨"//π//"⟩ : Root).join "" = "//π//" ∧
      Utf8.encode ((⟨"//π//"⟩ : Root).join "\uFFFD") =
        ((⟨"//π//"⟩ : Root).path.join (.ofString "\uFFFD")).bytes := by
  have hs := unspelledDirectory.hasAbsoluteDirectory
  obtain ⟨hdirs, hroots⟩ := join_loses_nothing hs
  have hroot : ofDirectory unspelledDirectory.surroundings (.ofString "//π//") =
      .ok ⟨"//π//"⟩ := ((hdirs (Utf8.encode "//π//")).2 ⟨"//π//"⟩).2 rfl
  obtain ⟨-, -, -, hjoin, -⟩ := hroots _ (.inl ⟨_, hroot⟩)
  refine ⟨hs, ?_, hroot, ?_, (hjoin "\uFFFD").2.1⟩
  · exact (hdirs []).1.2 (.inr ⟨_, absoluteBytes_empty_unspelledDirectory, by decide +kernel⟩)
  · rw [(hjoin "").1]
    decide +kernel

end Root

end CompileFlags
