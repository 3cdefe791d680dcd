import CompileFlags.Project
import CompileFlags.Proofs.Results
import CompileFlags.Proofs.ValuePositions
import CompileFlags.Proofs.Walks

/-!
# What is left to resolve after a normalization

A root that comes of a directory is absolute, so every path that is resolved against it is absolute,
too. A second normalization then finds each entry in the same role as the first one did, and nothing
in it to resolve, whatever root it is done under.

* `Root.isAbsolute_of_ofDirectory` and `Root.isAbsolute_of_containing` — such roots are absolute.
* `pendingAfter_result_ofEntry` — what becomes of an entry takes the next one exactly if the entry
  does.
* `result_ofEntry_result_ofEntry` — of what becomes of an entry nothing else becomes.
* `isValueAt_normalize` — normalization leaves each entry in its role.
* `normalize_absorbs` — a list that was normalized stays as it is under every root.
-/

namespace CompileFlags

/-! ## Absolute roots -/

/-- What surroundings promise about the current directory, if there is one. -/
def Surroundings.HasAbsoluteDirectory (s : Surroundings) : Prop :=
  ∀ here, s.currentDirectory = .ok here → here.isAbsolute = true

theorem Workplace.hasAbsoluteDirectory (w : Workplace) : w.surroundings.HasAbsoluteDirectory := by
  intro here h
  unfold surroundings at h
  split at h
  · cases h
    exact isAbsolute_pathOf w.current
  · cases h

theorem Surroundings.HasAbsoluteDirectory.absolute {s : Surroundings} (h : s.HasAbsoluteDirectory)
    {p dir : Path} (hdir : s.absolute p = .ok dir) : dir.isAbsolute = true := by
  unfold Surroundings.absolute at hdir
  split at hdir
  · cases hdir
    assumption
  · split at hdir
    · rename_i here hhere
      cases hdir
      exact Path.isAbsolute_join (h here hhere) p
    · cases hdir

namespace Root

/-- A root whose text starts with a slash. -/
def IsAbsolute (r : Root) : Prop := r.text.toList.head? = some '/'

theorem IsAbsolute.text_ne_empty {r : Root} (h : r.IsAbsolute) : r.text ≠ "" := by
  intro he
  rw [IsAbsolute, he] at h
  cases h

theorem isAbsolute_of_ofDirectory {s : Surroundings} (hs : s.HasAbsoluteDirectory) {p : Path}
    {r : Root} (h : ofDirectory s p = .ok r) : r.IsAbsolute := by
  obtain ⟨dir, hdir, h⟩ := exists_of_bind_eq_ok h
  have habs := (Path.isAbsolute_iff dir).1 (hs.absolute hdir)
  split at h
  · rename_i text htext
    cases h
    -- a text starts with a slash exactly if its bytes do
    rw [Utf8.decode_eq_ok_iff.1 htext] at habs
    exact (Utf8.head?_encode_eq_iff (a := '/') (by decide) text).1 habs
  · cases h

theorem isAbsolute_of_containing {s : Surroundings} (hs : s.HasAbsoluteDirectory) {p : Path}
    {r : Root} (h : containing s p = .ok r) : r.IsAbsolute := by
  obtain ⟨file, -, h⟩ := exists_of_bind_eq_ok h
  split at h
  · exact isAbsolute_of_ofDirectory hs h
  · cases h

/-- What is seen from an absolute root is absolute. -/
theorem IsAbsolute.head?_join {r : Root} (h : r.IsAbsolute) (p : String) :
    (r.join p).toList.head? = some '/' := by
  have htext : r.text.toList.head? = some '/' := h
  rw [join_eq_resolved h.text_ne_empty, resolved]
  split
  · assumption
  · split
    · rw [String.toList_append, List.head?_append, htext, Option.some_or]
    · rw [String.append_assoc, String.toList_append, List.head?_append, htext, Option.some_or]

end Root

/-! ## What becomes of an entry twice -/

section

variable {r : Root} (hr : r.IsAbsolute) (pending : Bool) (entry : String)

/-- What becomes of an entry takes the next one exactly if the entry does: the path of a separate
prefix is no flag, and what the root is joined to stays behind an attached one. -/
theorem pendingAfter_result_ofEntry :
    pendingAfter pending (Rewrite.ofEntry r pending entry).result = pendingAfter pending entry := by
  cases pending with
  | true => rfl
  | false =>
    rcases Flag.parse_cases entry with ⟨-, p, hp⟩ | ⟨path, rfl, hp⟩ | ⟨-, ha, -⟩
    · rw [Rewrite.ofEntry, if_neg Bool.false_ne_true, hp]
      rfl
    · rw [Rewrite.result_ofEntry_sysroot, pendingAfter, pendingAfter, Flag.parse_sysroot, hp]
      rfl
    · rw [Rewrite.result_ofEntry_other r ha]

include hr in
/-- Of what becomes of an entry under an absolute root, nothing else becomes under any root. -/
theorem result_ofEntry_result_ofEntry (other : Root) :
    (Rewrite.ofEntry other pending (Rewrite.ofEntry r pending entry).result).result =
      (Rewrite.ofEntry r pending entry).result := by
  cases pending with
  | true =>
    rw [Rewrite.result_ofEntry_value, Rewrite.result_ofEntry_value,
      Root.join_of_absolute _ (hr.head?_join entry)]
  | false =>
    by_cases ha : ∃ path, entry = "--sysroot=" ++ path
    · obtain ⟨path, rfl⟩ := ha
      rw [Rewrite.result_ofEntry_sysroot, Rewrite.result_ofEntry_sysroot,
        Root.join_of_absolute _ (hr.head?_join path)]
    · have ha : ∀ path, entry ≠ "--sysroot=" ++ path := fun path h => ha ⟨path, h⟩
      rw [Rewrite.result_ofEntry_other r ha, Rewrite.result_ofEntry_other other ha]

end

/-! ## Lists that are normalized twice -/

theorem rewrites_rewrites {r : Root} (hr : r.IsAbsolute) (other : Root) (pending : Bool)
    (flags : List String) :
    (rewrites other pending ((rewrites r pending flags).map Rewrite.result)).map Rewrite.result =
      (rewrites r pending flags).map Rewrite.result := by
  induction flags generalizing pending with
  | nil => rfl
  | cons entry rest ih =>
    rw [rewrites, List.map_cons, rewrites, List.map_cons, pendingAfter_result_ofEntry, ih,
      result_ofEntry_result_ofEntry hr]

theorem normalize_normalize {r : Root} (hr : r.IsAbsolute) (flags : List String)
    (other : Option Root) :
    normalize (normalize flags (some r)) other = normalize flags (some r) := by
  cases other with
  | none => exact normalize_none _
  | some other =>
    by_cases ho : other.text = ""
    · exact normalize_of_isEmpty _ (by rw [Root.isEmpty, String.isEmpty_iff, ho])
    · rw [normalize_of_text_ne_empty flags hr.text_ne_empty, normalize_of_text_ne_empty _ ho,
        rewrites_rewrites hr]

/-- Normalization leaves each entry in its role. -/
theorem isValueAt_normalize {r : Root} (hr : r.text ≠ "") (flags : List String) (i : Nat) :
    isValueAt (normalize flags (some r)) i = isValueAt flags i := by
  induction i with
  | zero => rfl
  | succ i ih =>
    rw [isValueAt, isValueAt, ih]
    cases h : flags[i]? with
    | none =>
      have hnone : (normalize flags (some r))[i]? = none := by
        rw [List.getElem?_eq_none_iff] at h ⊢
        rwa [length_normalize]
      rw [hnone]
    | some entry =>
      rw [getElem?_normalize hr h]
      simp only [Option.any_some, ← pendingAfter_eq, pendingAfter_result_ofEntry]

/-- The paths in a list that was normalized under an absolute root. -/
theorem absolute_of_getElem?_normalize {r : Root} (hr : r.IsAbsolute) {flags : List String}
    {i : Nat} {entry : String} (h : (normalize flags (some r))[i]? = some entry) :
    (isValueAt flags i = true → entry.toList.head? = some '/') ∧
    (isValueAt flags i = false →
      ∀ path, entry = "--sysroot=" ++ path → path.toList.head? = some '/') := by
  obtain ⟨hi, -⟩ := List.getElem?_eq_some_iff.1 h
  rw [length_normalize] at hi
  have hentry := List.getElem?_eq_getElem hi
  rw [getElem?_normalize hr.text_ne_empty hentry, Option.some_inj] at h
  refine ⟨?_, ?_⟩
  · intro hv
    rw [hv, Rewrite.result_ofEntry_value] at h
    exact h ▸ hr.head?_join _
  · rintro hv path rfl
    rw [hv] at h
    -- what starts with the attached prefix afterwards has started with it before
    by_cases ha : ∃ path, flags[i] = "--sysroot=" ++ path
    · obtain ⟨written, hwritten⟩ := ha
      rw [hwritten, Rewrite.result_ofEntry_sysroot] at h
      rw [← (String.append_right_inj _).1 h]
      exact hr.head?_join written
    · rw [Rewrite.result_ofEntry_other r fun path hpath => ha ⟨path, hpath⟩] at h
      exact absurd ⟨path, h⟩ ha

/-- **Normalization absorbs normalization.** Under a root that comes of a directory, or of the
directory of a file, every path of a flag list becomes absolute: that of each value and that after
each `--sysroot=`. Each entry stays in its role, whatever it became. So nothing is left to resolve:
the list stays as it is without a root, under the empty one, under the same one and under every
other. -/
theorem normalize_absorbs {s : Surroundings} (hs : s.HasAbsoluteDirectory) {r : Root}
    (hr : (∃ dir, Root.ofDirectory s dir = .ok r) ∨ (∃ file, Root.containing s file = .ok r))
    (flags : List String) :
    (∀ other : Option Root,
      normalize (normalize flags (some r)) other = normalize flags (some r)) ∧
    (∀ i, isValueAt (normalize flags (some r)) i = isValueAt flags i) ∧
    ∀ i entry, (normalize flags (some r))[i]? = some entry →
      (isValueAt flags i = true → entry.toList.head? = some '/') ∧
      (isValueAt flags i = false →
        ∀ path, entry = "--sysroot=" ++ path → path.toList.head? = some '/') := by
  have habs : r.IsAbsolute := by
    rcases hr with ⟨dir, h⟩ | ⟨file, h⟩
    · exact Root.isAbsolute_of_ofDirectory hs h
    · exact Root.isAbsolute_of_containing hs h
  refine ⟨normalize_normalize habs flags, isValueAt_normalize habs.text_ne_empty flags, ?_⟩
  intro i entry h
  exact absolute_of_getElem?_normalize habs h

/-- A tree of files with one directory, which is the one to work in. -/
def oneDirectory : Workplace where
  tree := .directory [(Utf8.encode "p", .directory [])]
  current := [Utf8.encode "p"]

/-- The second entry is a value that looks like a prefix, and the last one the directory itself. -/
theorem normalize_absorbs_in_a_directory :
    Root.ofDirectory oneDirectory.surroundings (.ofString ".") = .ok ⟨"/p/."⟩ ∧
      normalize ["-I", "-I", "--sysroot=x", "-isystem", "."] (some ⟨"/p/."⟩) =
        ["-I", "/p/./-I", "--sysroot=/p/./x", "-isystem", "/p/./."] ∧
      normalize ["-I", "/p/./-I", "--sysroot=/p/./x", "-isystem", "/p/./."] (some ⟨"q"⟩) =
        ["-I", "/p/./-I", "--sysroot=/p/./x", "-isystem", "/p/./."] := by
  have hroot : Root.ofDirectory oneDirectory.surroundings (.ofString ".") = .ok ⟨"/p/."⟩ := by
    decide +kernel
  have hflags : normalize ["-I", "-I", "--sysroot=x", "-isystem", "."] (some ⟨"/p/."⟩) =
      ["-I", "/p/./-I", "--sysroot=/p/./x", "-isystem", "/p/./."] := by
    decide +kernel
  obtain ⟨habsorbs, -, -⟩ := normalize_absorbs oneDirectory.hasAbsoluteDirectory
    (.inl ⟨.ofString ".", hroot⟩) ["-I", "-I", "--sysroot=x", "-isystem", "."]
  have hagain := habsorbs (some ⟨"q"⟩)
  rw [hflags] at hagain
  exact ⟨hroot, hflags, hagain⟩

end CompileFlags
