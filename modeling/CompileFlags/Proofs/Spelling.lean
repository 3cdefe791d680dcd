import CompileFlags.Normalize
import CompileFlags.Proofs.Encoding

/-!
# How joined paths are spelled

* `Path.isAbsolute_iff` — a path is absolute exactly when its first byte is a slash.
* `Path.bytes_join` — a relative path follows a directory after exactly one slash.
* `Root.join_eq_resolved` — the same for texts: nothing is lost between a root, a path and what
  they come to.
-/

namespace CompileFlags

theorem joinPieces_append {α : Type} (sep : List α) {xs ys : List (List α)} (hx : xs ≠ [])
    (hy : ys ≠ []) : joinPieces sep (xs ++ ys) = joinPieces sep xs ++ sep ++ joinPieces sep ys := by
  induction xs with
  | nil => exact absurd rfl hx
  | cons x xs ih =>
    cases xs with
    | nil => exact joinPieces_cons_of_ne_nil sep x hy
    | cons x' xs =>
      rw [List.cons_append, joinPieces_cons_of_ne_nil sep x (by simp), ih (by simp),
        joinPieces_cons_of_ne_nil sep x (by simp)]
      simp only [List.append_assoc]

namespace Path

theorem segments_eq (p : Path) : p.segments = p.before.reverse ++ [p.last] := by
  rw [segments, back, List.reverse_cons]

/-- With a slash in it, a path is what stands before its last slash and what stands after it. -/
theorem bytes_of_before_ne_nil {p : Path} (h : p.before ≠ []) :
    p.bytes = joinPieces [slash] p.before.reverse ++ [slash] ++ p.last := by
  rw [bytes, segments_eq, joinPieces_append _ (by simpa using h) (by simp)]
  rfl

theorem bytes_of_before_eq_nil {p : Path} (h : p.before = []) : p.bytes = p.last := by
  rw [bytes, segments_eq, h]
  rfl

theorem slash_notMem_last (p : Path) : slash ∉ p.last := p.slash_notMem _ List.mem_cons_self

/-- A path is absolute exactly when its first byte is a slash. -/
theorem isAbsolute_iff (p : Path) : p.isAbsolute = true ↔ p.bytes.head? = some slash := by
  rw [isAbsolute, beq_iff_eq]
  rcases List.eq_nil_or_concat p.before with hb | ⟨rest, first, hb⟩
  · rw [hb, bytes_of_before_eq_nil hb]
    constructor
    · intro h
      cases h
    · intro h
      exact absurd (List.mem_of_head? h) p.slash_notMem_last
  · have hs : p.bytes = first ++ (slash :: joinPieces [slash] (rest.reverse ++ [p.last])) := by
      rw [bytes, segments_eq, hb]
      simp [joinPieces_cons_of_ne_nil]
    have hf : slash ∉ first := by
      apply p.slash_notMem
      rw [hb]
      simp
    rw [hs, hb, List.concat_eq_append, List.getLast?_append_cons, List.getLast?_singleton,
      Option.some.injEq]
    constructor
    · rintro rfl
      rfl
    · intro h
      cases first with
      | nil => rfl
      | cons b first =>
        rw [List.cons_append, List.head?_cons, Option.some.injEq] at h
        exact absurd (h ▸ List.mem_cons_self) hf

/-- A path ends with a slash exactly when nothing stands after its last slash. -/
theorem getLast?_bytes_eq_slash_iff (p : Path) :
    p.bytes.getLast? = some slash ↔ p.last = [] ∧ p.before ≠ [] := by
  by_cases hb : p.before = []
  · rw [bytes_of_before_eq_nil hb]
    constructor
    · intro h
      exact absurd (List.mem_of_getLast? h) p.slash_notMem_last
    · rintro ⟨-, h⟩
      exact absurd hb h
  · rw [bytes_of_before_ne_nil hb]
    constructor
    · intro h
      refine ⟨?_, hb⟩
      by_contra hl
      rw [List.getLast?_append_of_ne_nil _ hl] at h
      exact p.slash_notMem_last (List.mem_of_getLast? h)
    · rintro ⟨hl, -⟩
      rw [hl, List.append_nil, List.getLast?_append_cons, List.getLast?_singleton]

/-- A relative path follows a directory after exactly one slash. -/
theorem bytes_join {base p : Path} (hb : base.bytes ≠ []) (hp : p.isAbsolute = false) :
    (base.join p).bytes =
      base.bytes ++ (if base.bytes.getLast? = some slash then [] else [slash]) ++ p.bytes := by
  by_cases hl : base.last = []
  · have hbefore : base.before ≠ [] := by
      intro h
      rw [bytes_of_before_eq_nil h] at hb
      exact hb hl
    have hseg : (base.join p).segments = base.before.reverse ++ p.segments := by
      simp [join, hp, hl, segments, back]
    rw [if_pos ((getLast?_bytes_eq_slash_iff base).2 ⟨hl, hbefore⟩), List.append_nil, bytes, hseg,
      joinPieces_append _ (by simpa using hbefore) (by simp [segments, back]),
      bytes_of_before_ne_nil hbefore, hl, List.append_nil]
    rfl
  · have hseg : (base.join p).segments = base.segments ++ p.segments := by
      simp [join, hp, hl, segments, back]
    rw [if_neg (fun h => hl ((getLast?_bytes_eq_slash_iff base).1 h).1), bytes, hseg,
      joinPieces_append _ (by simp [segments, back]) (by simp [segments, back])]
    rfl

/-- A text spells an absolute path exactly when it starts with a slash. -/
theorem isAbsolute_ofString_iff (s : String) :
    (ofString s).isAbsolute = true ↔ s.toList.head? = some '/' := by
  rw [isAbsolute_iff, ofString, bytes_ofBytes]
  exact Utf8.head?_encode_eq_iff (a := '/') (by decide) s

end Path

namespace Root

/-- A path seen from a root as a text: the path itself if it starts with a slash, and else the text
of the root, a slash unless there is one already, and the path. -/
def resolved (r : Root) (p : String) : String :=
  if p.toList.head? = some '/' then p
  else if r.text.toList.getLast? = some '/' then r.text ++ p
  else r.text ++ "/" ++ p

/-- Under any root an absolute path stays what it is. -/
theorem join_of_absolute (r : Root) {p : String} (h : p.toList.head? = some '/') :
    r.join p = p := by
  rw [join, Path.join_of_isAbsolute ((Path.isAbsolute_ofString_iff p).2 h), Path.display,
    Path.ofString, Path.bytes_ofBytes, Utf8.lossy_encode]

/-- **Joining is done on the texts**, whatever bytes they are spelled with. -/
theorem join_eq_resolved {r : Root} (hr : r.text ≠ "") (p : String) : r.join p = r.resolved p := by
  unfold resolved
  by_cases hp : p.toList.head? = some '/'
  · rw [if_pos hp, join_of_absolute r hp]
  · have hrel : (Path.ofString p).isAbsolute = false := by
      rw [← Bool.not_eq_true]
      exact fun h => hp ((Path.isAbsolute_ofString_iff p).1 h)
    have hroot : r.path.bytes = Utf8.encode r.text := Path.bytes_ofBytes _
    have hne : r.path.bytes ≠ [] := by
      rw [hroot]
      exact Utf8.encode_ne_nil hr
    have hend : (Utf8.encode r.text).getLast? = some Path.slash ↔
        r.text.toList.getLast? = some '/' :=
      Utf8.getLast?_encode_eq_iff (a := '/') (by decide) r.text
    have hsep : Utf8.encode "/" = [Path.slash] := rfl
    rw [if_neg hp, join, Path.display, Path.bytes_join hne hrel, hroot, Path.ofString,
      Path.bytes_ofBytes]
    by_cases hs : r.text.toList.getLast? = some '/'
    · rw [if_pos hs, if_pos (hend.2 hs), List.append_nil, ← Utf8.encode_append, Utf8.lossy_encode]
    · rw [if_neg hs, if_neg (fun h => hs (hend.1 h)), ← hsep, ← Utf8.encode_append,
        ← Utf8.encode_append, Utf8.lossy_encode]

end Root

end CompileFlags
