import CompileFlags.Proofs.AbsoluteRoots

/-!
# The directory that holds a file

Going up from an absolute path cuts its spelling and its components at the same place: what is left
is the start of the path, without separators and `.` at its end, and it has all components but the
last one.

* `Path.last_eq_of_suffix` — what stands behind a slash at the end of a path is its last piece.
* `Path.IsParentOf` — what it takes to be the directory of a path.
* `Path.parent?_eq_none_iff`, `Path.isParentOf_of_parent?` — going up leads to the directory of a
  path, if it has a component.
* `Root.containing_splits_off_last` — the directory of a file as a root.
-/

namespace CompileFlags

open CompileFlags.Path (IsText)

/-- The first pieces are spelled as the start of all of them. -/
theorem joinPieces_prefix {α : Type} (sep : List α) {xs ys : List (List α)} (hx : xs ≠ [])
    (h : xs <+: ys) : joinPieces sep xs <+: joinPieces sep ys := by
  obtain ⟨more, rfl⟩ := h
  by_cases hmore : more = []
  · rw [hmore, List.append_nil]
  · rw [joinPieces_append sep hx hmore, List.append_assoc]
    exact List.prefix_append _ _

namespace Path

/-! ## The end of a path -/

/-- What stands behind a slash at the end of a path, and holds none, is its last piece. -/
theorem last_eq_of_suffix {p : Path} (piece : Bytes) (hpiece : slash ∉ piece)
    (h : slash :: piece <:+ p.bytes) : p.last = piece := by
  obtain ⟨before, hbefore⟩ := h
  have hseg := pieces_bytes p
  rw [← hbefore, pieces_append_cons (by decide), pieces_of_notMem hpiece, segments_eq] at hseg
  have hlast := congrArg List.getLast? hseg
  rw [List.getLast?_append_cons, List.getLast?_append_cons, List.getLast?_singleton,
    List.getLast?_singleton, Option.some_inj] at hlast
  exact hlast.symm

/-- A path ends cleanly if no separator and no `.` stand at its end. -/
theorem not_suffix_of_isName {p : Path} (h : isName p.last = true) :
    ¬[slash] <:+ p.bytes ∧ ¬[slash, dot] <:+ p.bytes := by
  constructor
  · intro hs
    rw [last_eq_of_suffix [] (by decide) hs] at h
    cases h
  · intro hs
    rw [last_eq_of_suffix [dot] (by decide) hs] at h
    exact absurd h (by decide)

/-! ## Parents -/

/-- What it takes to be the directory of a path: the path starts with it, no separator and no `.`
stand at its end unless it is the root directory, and it has all components but the last one. -/
structure IsParentOf (dir p : Path) : Prop where
  isPrefix : dir.bytes <+: p.bytes
  ends_cleanly : dir.bytes = [slash] ∨ ¬[slash] <:+ dir.bytes ∧ ¬[slash, dot] <:+ dir.bytes
  components : ∃ name, p.components = dir.components ++ [name]

theorem exists_dropLast?_of_parent? {p dir : Path} (h : p.parent? = some dir) :
    ∃ qs hs, dropLast? p.back = some qs ∧ dir = ofBack p.isAbsolute qs hs := by
  unfold parent? at h
  split at h
  · cases h
  · rename_i qs hd
    cases h
    exact ⟨qs, _, hd, rfl⟩

theorem isName_of_trimmed {ps before : List Bytes} {name : Bytes} (h : Rooted ps)
    (ht : trimmed ps = name :: before) : isName name = true := by
  rcases trimmed_cases h with ⟨ht', -⟩ | ⟨name', before', ht', -, hn⟩
  · rw [ht] at ht'
    cases ht'
  · rw [ht] at ht'
    cases ht'
    exact (List.mem_filter.1 (hn ▸ List.mem_cons_self)).2

/-- What is left of an absolute path without its last component ends with a name. -/
theorem isName_of_dropLast? {ps before : List Bytes} {name : Bytes} (h : Rooted ps)
    (hd : dropLast? ps = some (name :: before)) : isName name = true := by
  rcases trimmed_cases h with ⟨ht, -⟩ | ⟨last, rest, ht, hrest, -⟩
  · rw [dropLast?, ht] at hd
    cases hd
  · rw [dropLast?, ht, Option.some_inj] at hd
    exact isName_of_trimmed hrest hd

theorem bytes_ofBack_prefix {p : Path} (h : p.isAbsolute = true) {qs : List Bytes}
    (hq : qs <:+ p.back) (hs : ∀ piece ∈ qs, slash ∉ piece) :
    (ofBack true qs hs).bytes <+: p.bytes := by
  cases qs with
  | nil =>
    obtain ⟨rest, hrest⟩ := List.head?_eq_some_iff.1 ((isAbsolute_iff p).1 h)
    exact ⟨rest, hrest.symm⟩
  | cons q before =>
    apply joinPieces_prefix
    · simp [segments, back, ofBack]
    · exact List.reverse_prefix.2 hq

variable {p dir : Path}

theorem parent?_eq_none_iff (h : p.isAbsolute = true) : p.parent? = none ↔ p.components = [] := by
  rw [components_eq_names h, names_eq_reverse, List.reverse_eq_nil_iff]
  constructor
  · intro hp
    cases hn : p.backNames with
    | nil => rfl
    | cons name rest =>
      obtain ⟨dir, hdir, -⟩ := exists_parent?_of_backNames h hn
      rw [hp] at hdir
      cases hdir
  · intro hn
    cases hp : p.parent? with
    | none => rfl
    | some dir =>
      obtain ⟨qs, -, hd, -⟩ := exists_dropLast?_of_parent? hp
      rcases dropLast?_cases (getLast?_back h) with ⟨hd', -⟩ | ⟨name, qs', -, -, hn'⟩
      · rw [hd] at hd'
        cases hd'
      · rw [backNames, hn'] at hn
        cases hn

/-- Going up leads to the directory of an absolute path. -/
theorem isParentOf_of_parent? (h : p.isAbsolute = true) (hp : p.parent? = some dir) :
    dir.isAbsolute = true ∧ dir.IsParentOf p := by
  obtain ⟨qs, hs, hd, rfl⟩ := exists_dropLast?_of_parent? hp
  have hrooted := getLast?_back h
  rcases dropLast?_cases hrooted with ⟨hd', -⟩ | ⟨name, qs', hd', hq, hn⟩
  · rw [hd] at hd'
    cases hd'
  rw [hd, Option.some_inj] at hd'
  subst hd'
  rw [h]
  have habs := isAbsolute_ofBack hq hs
  refine ⟨habs, bytes_ofBack_prefix h (suffix_of_dropLast? hd).1 hs, ?_, name, ?_⟩
  · cases qs with
    | nil => exact .inl rfl
    | cons q before => exact .inr (not_suffix_of_isName (isName_of_dropLast? hrooted hd))
  · rw [components_eq_names h, components_eq_names habs, names_eq_reverse, names_eq_reverse,
      backNames_ofBack, backNames, hn, List.reverse_cons]

end Path

/-! ## The directory of a file as a root -/

namespace Root

variable {s : Surroundings}

/-- An absolute path that is a text is a root with this text. -/
theorem ofDirectory_of_isAbsolute (hs : s.HasAbsoluteDirectory) {dir : Path}
    (h : dir.isAbsolute = true) {r : Root} (hr : dir.bytes = Utf8.encode r.text) :
    ofDirectory s dir = .ok r := by
  have hbytes : s.absoluteBytes dir.bytes = .ok (Utf8.encode r.text) := by
    rw [Surroundings.absoluteBytes, if_pos ((Path.isAbsolute_iff dir).1 h), hr]
  rw [← Path.ofBytes_bytes dir]
  exact ofDirectory_of_encode hs hbytes

/-- **The directory of a file is split off where its last component starts.** Seen from the current
directory, a file is an absolute path. If this has no component, the file has no directory. If it
has one, the path starts with the directory of the file, which does not end with a separator or a
`.`, unless it is the root directory, and has all components of the path but the last one, whatever
that is. The directory is a root if it is a text. -/
theorem containing_splits_off_last (hs : s.HasAbsoluteDirectory) (file : Path) :
    (∀ f, s.absolute file = .error f → containing s file = .error f) ∧
    ∀ path, s.absolute file = .ok path →
      (containing s file = .error (.ofComplaint (.noParent path)) ↔ path.components = []) ∧
      (path.components ≠ [] → ∃ dir : Path, dir.IsParentOf path ∧
        (IsText dir.bytes → ∃ r : Root, r.path = dir ∧ Utf8.encode r.text = dir.bytes ∧
          containing s file = .ok r) ∧
        (¬IsText dir.bytes →
          containing s file = .error (.ofComplaint (.rootNotText dir)))) := by
  constructor
  · intro f hf
    simp only [containing, hf, bind, Except.bind]
  intro path hpath
  have habs := hs.absolute hpath
  cases hp : path.parent? with
  | none =>
    have hc := (Path.parent?_eq_none_iff habs).1 hp
    have hfails : containing s file = .error (.ofComplaint (.noParent path)) := by
      simp only [containing, hpath, hp, bind, Except.bind]
    exact ⟨⟨fun _ => hc, fun _ => hfails⟩, fun hne => absurd hc hne⟩
  | some dir =>
    have hne : path.components ≠ [] := by
      intro hc
      rw [(Path.parent?_eq_none_iff habs).2 hc] at hp
      cases hp
    obtain ⟨hdir, hparent⟩ := Path.isParentOf_of_parent? habs hp
    have hcontaining := containing_of_parent? hpath hp
    have htext : IsText dir.bytes → ∃ r : Root, r.path = dir ∧ Utf8.encode r.text = dir.bytes ∧
        containing s file = .ok r := by
      rintro ⟨text, ht⟩
      refine ⟨⟨text⟩, ?_, ht.symm, ?_⟩
      · rw [Root.path, Path.ofString, ← ht, Path.ofBytes_bytes]
      · rw [hcontaining, ofDirectory_of_isAbsolute (r := ⟨text⟩) hs hdir ht]
    have hnot (ht : ¬IsText dir.bytes) :
        containing s file = .error (.ofComplaint (.rootNotText dir)) := by
      rw [hcontaining]
      refine ofDirectory_of_not_isText s (s.absolute_of_isAbsolute hdir) ?_
      rwa [← Path.isText_bytes_iff]
    refine ⟨⟨?_, fun hc => absurd hc hne⟩, fun _ => ⟨dir, hparent, htext, hnot⟩⟩
    intro hfails
    -- the directory is a root, or is told to be no text
    by_cases ht : IsText dir.bytes
    · obtain ⟨r, -, -, hr⟩ := htext ht
      rw [hr] at hfails
      cases hfails
    · rw [hnot ht] at hfails
      cases hfails

/-- Repeated separators and `.` are cut off on both sides of the last component, which is `..` here.
Where there are only these, there is no directory. -/
theorem containing_among_dots :
    oneDirectory.surroundings.HasAbsoluteDirectory ∧
      containing oneDirectory.surroundings (.ofString "a//./..//.") = .ok ⟨"/p/a"⟩ ∧
      (⟨"/p/a"⟩ : Root).path.IsParentOf (.ofString "/p/a//./..//.") ∧
      containing oneDirectory.surroundings (.ofString "//./") =
        .error (.ofComplaint (.noParent (.ofString "//./"))) := by
  have hs := oneDirectory.hasAbsoluteDirectory
  have hroot : containing oneDirectory.surroundings (.ofString "a//./..//.") = .ok ⟨"/p/a"⟩ := by
    decide +kernel
  have hpath : oneDirectory.surroundings.absolute (.ofString "a//./..//.") =
      .ok (.ofString "/p/a//./..//.") := by decide +kernel
  obtain ⟨-, hsplit⟩ := (containing_splits_off_last hs (.ofString "a//./..//.")).2 _ hpath
  obtain ⟨dir, hparent, htext, hnot⟩ := hsplit (by decide +kernel)
  obtain ⟨hnone, -⟩ := (containing_splits_off_last hs (.ofString "//./")).2 (.ofString "//./")
    (by decide +kernel)
  refine ⟨hs, hroot, ?_, hnone.2 (by decide +kernel)⟩
  by_cases ht : IsText dir.bytes
  · obtain ⟨r, rfl, -, hr⟩ := htext ht
    rw [hroot] at hr
    cases hr
    exact hparent
  · rw [hnot ht] at hroot
    cases hroot

end Root

end CompileFlags
