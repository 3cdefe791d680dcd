import CompileFlags.Filter
import CompileFlags.Proofs.ValuePositions
import CompileFlags.Row

/-!
# Slices of a flag list

The table of flags is made by going through a flag list from place to place. From each place a row
takes one entry, or two if the first of them is a separate prefix, and what they are resolved to is
taken from the same places of the normalized list. Normalization goes through the list entry by
entry and remembers whether it owes a path. Both cut the list in the same places, so each slice
could as well be normalized on its own.

* `rewrites_append` — what is remembered at a cut is all that one part has to know of the other.
* `normalize_append` — where nothing is owed, the parts are normalized apart.
* `Row.scan?_append` — what comes of the places behind a cut are the slices of what stands there.
* `Project.rows_cut_as_normalized` — the rows of a project are its slices, each on its own.
-/

namespace CompileFlags

/-! ## Cutting a flag list -/

/-- What is remembered at a cut is all that the second part has to know of the first. -/
theorem rewrites_append (r : Root) (pending : Bool) (before after : List String) :
    rewrites r pending (before ++ after) =
      rewrites r pending before ++ rewrites r (before.foldl pendingAfter pending) after := by
  induction before generalizing pending with
  | nil => rfl
  | cons entry rest ih => rw [List.cons_append, rewrites, ih, rewrites, List.cons_append,
      List.foldl_cons]

/-- Whether no path is owed at the end of a flag list. -/
def Closed (flags : List String) : Prop := flags.foldl pendingAfter false = false

theorem closed_nil : Closed [] := rfl

theorem Closed.append {before after : List String} (hbefore : Closed before)
    (hafter : Closed after) : Closed (before ++ after) := by
  rw [Closed, List.foldl_append, hbefore]
  exact hafter

/-- An entry that takes no other owes nothing. -/
theorem closed_singleton {entry : String} (h : (Flag.parse entry).takesNext = false) :
    Closed [entry] := by
  show pendingAfter false entry = false
  rw [pendingAfter, h]
  rfl

/-- The path of a separate prefix is not looked at as a flag, so nothing is owed after it. -/
theorem closed_pair {entry : String} (h : (Flag.parse entry).takesNext = true) (path : String) :
    Closed [entry, path] := by
  show pendingAfter (pendingAfter false entry) path = false
  rw [pendingAfter, pendingAfter, h]
  rfl

/-- Where nothing is owed, or nothing follows, the parts are normalized apart. -/
theorem normalize_append {before after : List String} (h : Closed before ∨ after = [])
    (root : Option Root) :
    normalize (before ++ after) root = normalize before root ++ normalize after root := by
  rcases h with h | rfl
  · cases root with
    | none => rfl
    | some r =>
      rw [normalize, normalize, normalize]
      split
      · rfl
      · rw [rewrites_append, h, List.map_append]
  · have hnil : normalize [] root = [] := List.length_eq_zero_iff.1 (length_normalize [] root)
    rw [hnil, List.append_nil, List.append_nil]

/-- The slices of a flag list: a separate prefix with the entry behind it, and any other entry on
its own. -/
def slices : List String → List (List String)
  | [] => []
  | [entry] => [[entry]]
  | entry :: next :: rest =>
    if (Flag.parse entry).takesNext then [entry, next] :: slices rest
    else [entry] :: slices (next :: rest)

/-- The slices hold every entry once, in order. -/
theorem flatten_slices (flags : List String) : (slices flags).flatten = flags := by
  fun_induction slices flags with
  | case1 => rfl
  | case2 entry => rfl
  | case3 entry next rest h ih => rw [List.flatten_cons, ih]; rfl
  | case4 entry next rest h ih => rw [List.flatten_cons, ih]; rfl

/-- Whether a slice is as long as its first entry asks for, given the place of that entry in a list
and the length of the list. -/
def IsSliceAt (place total : Nat) (slice : List String) : Prop :=
  ∃ first more, slice = first :: more ∧
    slice.length = if first ∈ separatePrefixes ∧ place + 1 < total then 2 else 1

/-- What stands before both the slice and the end of the list does not matter. -/
theorem IsSliceAt.behind {place total : Nat} {slice : List String} (h : IsSliceAt place total slice)
    (part : List String) : IsSliceAt (part.length + place) (part.length + total) slice := by
  obtain ⟨first, more, rfl, hlength⟩ := h
  refine ⟨first, more, rfl, hlength.trans ?_⟩
  simp only [Nat.add_assoc, Nat.add_lt_add_iff_left]

theorem isSliceAt_of_slices_eq {flags slice : List String} {before after : List (List String)}
    (h : slices flags = before ++ slice :: after) :
    IsSliceAt before.flatten.length flags.length slice := by
  fun_induction slices flags generalizing before with
  | case1 => simp at h
  | case2 entry =>
    cases before with
    | nil =>
      obtain ⟨rfl, -⟩ := List.cons.inj h
      exact ⟨entry, [], rfl, by simp⟩
    | cons first before => simp at h
  | case3 entry next rest ht ih =>
    cases before with
    | nil =>
      obtain ⟨rfl, -⟩ := List.cons.inj h
      have hs := (Flag.takesNext_parse_iff entry).1 ht
      exact ⟨entry, [next], rfl, by simp [hs]⟩
    | cons first before =>
      obtain ⟨rfl, hrest⟩ := List.cons.inj h
      show IsSliceAt ([entry, next] ++ before.flatten).length ([entry, next] ++ rest).length slice
      rw [List.length_append, List.length_append]
      exact (ih hrest).behind [entry, next]
  | case4 entry next rest ht ih =>
    cases before with
    | nil =>
      obtain ⟨rfl, -⟩ := List.cons.inj h
      have hs : entry ∉ separatePrefixes := by rwa [← Flag.takesNext_parse_iff]
      exact ⟨entry, [], rfl, by simp [hs]⟩
    | cons first before =>
      obtain ⟨rfl, hrest⟩ := List.cons.inj h
      show IsSliceAt ([entry] ++ before.flatten).length ([entry] ++ next :: rest).length slice
      rw [List.length_append, List.length_append]
      exact (ih hrest).behind [entry]

/-- Normalization does with a flag list what it does with each of its slices alone. -/
theorem normalize_eq_flatMap_slices (flags : List String) (root : Option Root) :
    normalize flags root = (slices flags).flatMap (normalize · root) := by
  fun_induction slices flags with
  | case1 => exact List.length_eq_zero_iff.1 (length_normalize [] root)
  | case2 entry => rw [List.flatMap_cons, List.flatMap_nil, List.append_nil]
  | case3 entry next rest ht ih =>
    rw [List.flatMap_cons, ← ih, ← normalize_append (.inl (closed_pair ht next))]
    rfl
  | case4 entry next rest ht ih =>
    rw [List.flatMap_cons, ← ih, ← normalize_append (.inl (closed_singleton (by simpa using ht)))]
    rfl

/-! ## Rows of slices -/

/-- What an entry is called: a separate prefix by itself, an attached one without its path. -/
def entryKind (entry : String) : String :=
  if entry ∈ separatePrefixes then entry
  else if "--sysroot=".toList <+: entry.toList then "--sysroot="
  else "plain"

theorem Flag.kind_parse (entry : String) : (parse entry).kind = entryKind entry := by
  rcases parse_cases entry with ⟨hs, -⟩ | ⟨path, rfl, hp⟩ | ⟨hs, ha, hp⟩
  · rw [entryKind, if_pos hs]
    simp only [separatePrefixes, List.mem_cons, List.not_mem_nil, or_false] at hs
    rcases hs with rfl | rfl | rfl <;> rfl
  · have hs : "--sysroot=" ++ path ∉ separatePrefixes := by
      rw [← takesNext_parse_iff, hp]
      exact Bool.false_ne_true
    have hstart : "--sysroot=".toList <+: ("--sysroot=" ++ path).toList := by
      rw [String.toList_append]
      exact List.prefix_append _ _
    rw [hp, entryKind, if_neg hs, if_pos hstart]
    rfl
  · have hstart : ¬"--sysroot=".toList <+: entry.toList := by
      rintro ⟨path, hpath⟩
      apply ha (.ofList path)
      rw [← String.toList_inj, ← hpath, String.toList_append]
      simp only [String.toList_ofList]
    rw [hp, entryKind, if_neg hs, if_neg hstart]
    rfl

namespace Row

/-- The row of a slice, which is normalized on its own. -/
def ofSlice (root : Option Root) (slice : List String) : Row where
  kind := entryKind (slice.headD "")
  written := String.intercalate " " slice
  resolved := String.intercalate " " (normalize slice root)

/-- A row without what it is resolved to. -/
def asWritten (r : Row) : String × String := (r.kind, r.written)

theorem slice?_append (before slice after : List String) :
    slice? (before ++ slice ++ after).toArray before.length (before ++ slice).length =
      some slice := by
  rw [slice?_of_le (by simp) (by simp)]
  simp [List.extract_eq_take_drop]

/-- One step from a place to the next: the slice between them is all that counts. -/
theorem scan?_slice (root : Option Root) {before : List String} (entry : String)
    (more after : List String) (rows : Array Row) (hbefore : Closed before)
    (hslice : Closed (entry :: more) ∨ after = [])
    (hstop : min (before.length + (Flag.parse entry).width)
      (before ++ (entry :: more) ++ after).length = (before ++ (entry :: more)).length) :
    scan? (before ++ (entry :: more) ++ after).toArray
        (normalize (before ++ (entry :: more) ++ after) root).toArray before.length rows =
      scan? (before ++ (entry :: more) ++ after).toArray
        (normalize (before ++ (entry :: more) ++ after) root).toArray
        (before ++ (entry :: more)).length (rows.push (ofSlice root (entry :: more))) := by
  obtain ⟨flags, hflags⟩ : ∃ flags, flags = before ++ (entry :: more) ++ after := ⟨_, rfl⟩
  have hresolved : normalize flags root =
      normalize before root ++ normalize (entry :: more) root ++ normalize after root := by
    have hclosed : Closed (before ++ (entry :: more)) ∨ after = [] :=
      hslice.imp_left hbefore.append
    rw [hflags, normalize_append hclosed, normalize_append (.inl hbefore)]
  have hentry : flags[before.length]? = some entry := by
    rw [hflags]
    simp
  have hlt : before.length < flags.toArray.size := (List.getElem?_eq_some_iff.1 hentry).1
  have hget : flags.toArray[before.length] = entry := (List.getElem?_eq_some_iff.1 hentry).2
  have hwritten : slice? flags.toArray before.length (before ++ (entry :: more)).length =
      some (entry :: more) := by
    rw [hflags]
    exact slice?_append _ _ _
  have hresult : slice? (normalize flags root).toArray before.length
      (before ++ (entry :: more)).length = some (normalize (entry :: more) root) := by
    have := slice?_append (normalize before root) (normalize (entry :: more) root)
      (normalize after root)
    rw [← hresolved] at this
    simpa using this
  rw [← hflags] at hstop ⊢
  conv_lhs => rw [scan?, dif_pos hlt]
  simp only [hget, List.size_toArray, hstop, hwritten, hresult]
  rw [ofEntries, Flag.kind_parse]
  rfl

/-- What comes of the places behind a cut are the slices of what stands there. -/
theorem scan?_append (root : Option Root) {before : List String} (after : List String)
    (rows : Array Row) (hbefore : Closed before) :
    scan? (before ++ after).toArray (normalize (before ++ after) root).toArray before.length rows =
      some (rows ++ ((slices after).map (ofSlice root)).toArray) := by
  fun_induction slices after generalizing before rows with
  | case1 =>
    rw [scan?, dif_neg (by simp)]
    simp
  | case2 entry =>
    -- whatever the last entry asks for, the list ends behind it
    have hstep := scan?_slice root entry [] [] rows hbefore
      (.inr rfl) (by have := (Flag.parse entry).one_le_width; simp; omega)
    rw [List.append_nil] at hstep
    rw [hstep, scan?, dif_neg (by simp)]
    simp
  | case3 entry next rest ht ih =>
    have hclosed := closed_pair ht next
    have hstep := scan?_slice root entry [next] rest rows hbefore
      (.inl hclosed) (by rw [Flag.width, if_pos ht]; simp)
    have hnext := ih (rows.push (ofSlice root [entry, next])) (hbefore.append hclosed)
    rw [← hstep] at hnext
    simpa using hnext
  | case4 entry next rest ht ih =>
    have hclosed := closed_singleton (Bool.not_eq_true _ ▸ ht)
    have hstep := scan?_slice root entry [] (next :: rest) rows hbefore
      (.inl hclosed) (by rw [Flag.width, if_neg ht]; simp)
    have hnext := ih (rows.push (ofSlice root [entry])) (hbefore.append hclosed)
    rw [← hstep] at hnext
    simpa using hnext

theorem ofFlags?_eq (flags : List String) (root : Option Root) :
    ofFlags? flags root = some ((slices flags).map (ofSlice root)).toArray := by
  have h := scan?_append root flags #[] closed_nil
  rw [Array.empty_append] at h
  exact h

end Row

namespace Project

theorem rows_eq (p : Project) :
    p.rows = (slices p.catalog.flags).map (Row.ofSlice p.root) ++
      p.catalog.c.map (Row.ofLanguageFlag .c) ++ p.catalog.cpp.map (Row.ofLanguageFlag .cpp) := by
  have h : (Row.ofFlags? p.catalog.flags p.root).get (Row.isSome_ofFlags? _ _) =
      ((slices p.catalog.flags).map (Row.ofSlice p.root)).toArray := by
    rw [Option.get_of_eq_some _ (Row.ofFlags?_eq _ _)]
  rw [rows, h]
  simp [Catalog.languageFlags]

/-- Of what a row says, only the last column depends on the root. -/
theorem map_asWritten_rows (p : Project) (root : Option Root) :
    ({ p with root }.rows).map Row.asWritten = p.rows.map Row.asWritten := by
  rw [rows_eq, rows_eq]
  simp [Function.comp_def, Row.ofSlice, Row.asWritten]

/-- **The table cuts the flags of a project where normalization does.** Going through them from
place to place never asks for entries that are not there. The flags fall into slices, which follow
each other and hold every entry once: a separate prefix with the entry behind it, if it is not the
last of all, and every other entry alone. There is a row for each slice. It is named after the
prefix that the slice starts with, it shows the entries as they are written, and it shows what
normalization makes of the slice alone, which is its part of the normalized list. A row for each
flag of C follows, and then one for each flag of C++. Under another root only the last column is
another, so that a filter selects the same rows. -/
theorem rows_cut_as_normalized (p : Project) :
    (∃ parts : List (List String),
      parts.flatten = p.catalog.flags ∧
      (∀ before slice after, parts = before ++ slice :: after →
        ∃ first more, slice = first :: more ∧
          slice.length =
            if first ∈ separatePrefixes ∧ before.flatten.length + 1 < p.catalog.flags.length then 2
            else 1) ∧
      normalize p.catalog.flags p.root = parts.flatMap (normalize · p.root) ∧
      Row.ofFlags? p.catalog.flags p.root = some (parts.map (Row.ofSlice p.root)).toArray ∧
      p.rows = parts.map (Row.ofSlice p.root) ++ p.catalog.c.map (fun flag => ⟨"c", flag, flag⟩) ++
        p.catalog.cpp.map (fun flag => ⟨"c++", flag, flag⟩)) ∧
    ∀ root : Option Root,
      ({ p with root }.rows).map Row.asWritten = p.rows.map Row.asWritten ∧
      ∀ filter : Filter,
        (({ p with root }.rows).filter fun r : Row => filter.accepts r.written).map Row.asWritten =
          (p.rows.filter fun r => filter.accepts r.written).map Row.asWritten := by
  refine ⟨⟨slices p.catalog.flags, flatten_slices _, ?_, normalize_eq_flatMap_slices _ _,
    Row.ofFlags?_eq _ _, rows_eq p⟩, ?_⟩
  · intro before slice after h
    exact isSliceAt_of_slices_eq h
  · intro root
    refine ⟨map_asWritten_rows p root, ?_⟩
    intro filter
    have hselected (rows : List Row) :
        (rows.filter fun r => filter.accepts r.written).map Row.asWritten =
          (rows.map Row.asWritten).filter fun columns => filter.accepts columns.2 := by
      rw [List.filter_map]
      rfl
    rw [hselected, hselected, map_asWritten_rows]

end Project

end CompileFlags
