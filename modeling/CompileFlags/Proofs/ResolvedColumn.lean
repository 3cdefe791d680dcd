import CompileFlags.Answer
import CompileFlags.Proofs.Slices

/-!
# The table and the answers

The last column of the table shows what the entries of a row are resolved to, joined by a space. An
answer is put together from whole lists: the flags of all files, normalized at once, and then those
that the language of the file adds. Both come to the same text, once the rows of the other language
are left out.

* `intercalate_map_intercalate` — joining the parts first makes no difference, if no part is empty.
* `Row.kind_ne_name` — a row of the flags of all files is never called what a language is called.
* `Project.answer_as_resolved_column` — the flags of an answer are the last column of the table.
-/

namespace CompileFlags

/-! ## Joining parts -/

/-- Joining parts that are joined themselves is joining all that they hold. A part without entries
would leave a separator of its own. -/
theorem intercalate_map_intercalate (sep : String) {parts : List (List String)}
    (h : ∀ part ∈ parts, part ≠ []) :
    String.intercalate sep (parts.map (String.intercalate sep)) =
      String.intercalate sep parts.flatten := by
  induction parts with
  | nil => rfl
  | cons part rest ih =>
    have hpart : part ≠ [] := h part (by simp)
    have hrest : ∀ p ∈ rest, p ≠ [] := fun p hp => h p (by simp [hp])
    cases rest with
    | nil => simp
    | cons next more =>
      have hnext : next ≠ [] := hrest next (by simp)
      have hflat : (next :: more).flatten ≠ [] := by simp [hnext]
      rw [List.flatten_cons, String.intercalate_append_of_ne_nil hpart hflat, ← ih hrest,
        List.map_cons, String.intercalate_cons_of_ne_nil (by simp)]

/-! ## Which rows are left -/

/-- The language that a file is not in if it is in this one. -/
def Language.other : Language → Language
  | c => cpp
  | cpp => c

theorem Language.name_eq_iff {l m : Language} : l.name = m.name ↔ l = m := by
  cases l <;> cases m <;> decide

theorem ne_nil_of_mem_slices {flags slice : List String} (h : slice ∈ slices flags) :
    slice ≠ [] := by
  obtain ⟨before, after, hparts⟩ := List.append_of_mem h
  obtain ⟨first, more, rfl, -⟩ := isSliceAt_of_slices_eq hparts
  simp

/-- An entry is never called what a language is called. -/
theorem entryKind_ne_name (entry : String) (l : Language) : entryKind entry ≠ l.name := by
  unfold entryKind
  split
  · rename_i h
    simp only [separatePrefixes, List.mem_cons, List.not_mem_nil, or_false] at h
    rcases h with rfl | rfl | rfl <;> cases l <;> decide
  · split <;> cases l <;> decide

namespace Row

/-- A row of the flags of all files is never called what a language is called. -/
theorem kind_ne_name {flags : List String} {root : Option Root} {rows : Array Row}
    (h : ofFlags? flags root = some rows) {row : Row} (hrow : row ∈ rows) (l : Language) :
    row.kind ≠ l.name := by
  rw [ofFlags?_eq, Option.some.injEq] at h
  subst h
  obtain ⟨slice, -, rfl⟩ : ∃ slice ∈ slices flags, ofSlice root slice = row := by
    simpa using hrow
  exact entryKind_ne_name _ l

/-- The rows of the flags that a language adds are called after it, and all others are not. -/
theorem filter_map_ofLanguageFlag (l m : Language) (flags : List String) :
    ((flags.map (ofLanguageFlag l)).filter fun row => row.kind ≠ m.name) =
      if l = m then [] else flags.map (ofLanguageFlag l) := by
  have hkind : ∀ row ∈ flags.map (ofLanguageFlag l), row.kind = l.name := by
    intro row hrow
    obtain ⟨flag, -, rfl⟩ := List.mem_map.1 hrow
    rfl
  split
  · rename_i h
    rw [List.filter_eq_nil_iff]
    intro row hrow
    simp [hkind row hrow, h]
  · rename_i h
    rw [List.filter_eq_self]
    intro row hrow
    simpa [hkind row hrow, Language.name_eq_iff] using h

theorem map_resolved_ofSlice (flags : List String) (root : Option Root) :
    ((slices flags).map (ofSlice root)).map resolved =
      ((slices flags).map (normalize · root)).map (String.intercalate " ") := by
  simp [Function.comp_def, ofSlice]

end Row

namespace Project

/-- The rows without those of the other language are those of the flags of all files and those of
the flags that the language adds. -/
theorem filter_rows (p : Project) (l : Language) :
    (p.rows.filter fun row => row.kind ≠ l.other.name) =
      (slices p.catalog.flags).map (Row.ofSlice p.root) ++
        (p.catalog.languageFlags l).map (Row.ofLanguageFlag l) := by
  have hshared : ((slices p.catalog.flags).map (Row.ofSlice p.root)).filter
        (fun row => row.kind ≠ l.other.name) =
      (slices p.catalog.flags).map (Row.ofSlice p.root) := by
    rw [List.filter_eq_self]
    intro row hrow
    have hmem : row ∈ ((slices p.catalog.flags).map (Row.ofSlice p.root)).toArray := by
      simpa using hrow
    simpa using Row.kind_ne_name (Row.ofFlags?_eq _ _) hmem l.other
  rw [rows_eq, List.filter_append, List.filter_append, hshared, Row.filter_map_ofLanguageFlag,
    Row.filter_map_ofLanguageFlag]
  cases l with
  | c => simp [Language.other, Catalog.languageFlags]
  | cpp => simp [Language.other, Catalog.languageFlags]

/-- The flags of a file, joined, are what the rows that are left are resolved to, joined. -/
theorem intercalate_flagsOf (p : Project) (l : Language) :
    String.intercalate " " (p.flagsOf l) =
      String.intercalate " "
        ((p.rows.filter fun row => row.kind ≠ l.other.name).map Row.resolved) := by
  obtain ⟨parts, hparts⟩ : ∃ parts, parts = (slices p.catalog.flags).map (normalize · p.root) ++
      (p.catalog.languageFlags l).map fun flag => [flag] := ⟨_, rfl⟩
  have hne : ∀ part ∈ parts, part ≠ [] := by
    intro part hpart
    rw [hparts, List.mem_append, List.mem_map, List.mem_map] at hpart
    rcases hpart with ⟨slice, hslice, rfl⟩ | ⟨flag, -, rfl⟩
    · -- a slice keeps its length, and no slice is empty
      have := ne_nil_of_mem_slices hslice
      rw [← List.length_pos_iff] at this ⊢
      rwa [length_normalize]
    · simp
  have hflat : parts.flatten = p.flagsOf l := by
    rw [flagsOf, normalize_eq_flatMap_slices, hparts, List.flatten_append, ← List.flatMap_def,
      ← List.flatMap_def, List.flatMap_singleton']
  have hcolumn : (p.rows.filter fun row => row.kind ≠ l.other.name).map Row.resolved =
      parts.map (String.intercalate " ") := by
    rw [filter_rows, List.map_append, Row.map_resolved_ofSlice, hparts, List.map_append]
    simp [Function.comp_def, Row.ofLanguageFlag]
  rw [hcolumn, intercalate_map_intercalate " " hne, hflat]

/-- **The table and the answer describe the same flags.** For every request, the flags of the answer
joined by single spaces are the last column of the table joined by single spaces, when the rows that
are called after the other language are left out. These are the rows of the flags that the other
language adds and no others: the table consists of the rows of the flags of all files, none of which
is called what a language is called, and of a row for each flag of C and then of C++. -/
theorem answer_as_resolved_column (p : Project) (r : Request) :
    String.intercalate " " (p.answer r).flags =
      String.intercalate " "
        ((p.rows.filter fun row =>
          row.kind ≠ (p.languageOf r.filename).other.name).map Row.resolved) ∧
    ∃ shared : Array Row,
      Row.ofFlags? p.catalog.flags p.root = some shared ∧
      p.rows = shared.toList ++ p.catalog.c.map (fun flag => ⟨"c", flag, flag⟩) ++
        p.catalog.cpp.map (fun flag => ⟨"c++", flag, flag⟩) ∧
      ∀ row ∈ shared, ∀ l : Language, row.kind ≠ l.name := by
  refine ⟨p.intercalate_flagsOf _, _, Row.ofFlags?_eq _ _, p.rows_eq, ?_⟩
  intro row hrow l
  exact Row.kind_ne_name (Row.ofFlags?_eq _ _) hrow l

end Project

end CompileFlags
