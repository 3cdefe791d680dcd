import CompileFlags.Proofs.Encoding
import CompileFlags.Proofs.Lines
import CompileFlags.Text.Offset
import CompileFlags.Usage
import Mathlib.Data.List.Forall2

/-!
# Aligned help texts

The table of usages has a line for each of them. Its first column is as wide as the longest format,
so every format fits into it, and behind it all short texts start at one offset. Widths and offsets
are counted in bytes.

* `Usage.exists_eq_formatWidth` — the first column is no wider than the longest format.
* `Usage.isRowAt_of_row?` — what stands on a line, and where.
* `Usage.IsRowAt.newline_mem_iff` — which lines would be cut further.
* `Usage.table_in_two_columns` — the lines of the table.
-/

namespace CompileFlags

open Text (dropBytes? dropBytes?_append)

/-- A text that begins another one is cut off at its own size. -/
theorem dropBytes?_utf8ByteSize (front rest : String) :
    dropBytes? front.utf8ByteSize (front ++ rest).toList = some rest.toList := by
  rw [← Utf8.length_encode, Utf8.encode, String.toList_append]
  exact dropBytes?_append front.toList rest.toList

theorem mapM_eq_some_iff {α β : Type} {f : α → Option β} {l : List α} {bs : List β} :
    l.mapM f = some bs ↔ List.Forall₂ (fun a b => f a = some b) l bs := by
  induction l generalizing bs with
  | nil =>
    rw [List.forall₂_nil_left_iff, List.mapM_nil]
    exact Option.some_inj.trans eq_comm
  | cons a l ih =>
    rw [List.mapM_cons]
    constructor
    · intro h
      obtain ⟨b, hb, h⟩ := Option.bind_eq_some_iff.1 h
      obtain ⟨more, hmore, h⟩ := Option.bind_eq_some_iff.1 h
      cases h
      exact .cons hb (ih.1 hmore)
    · intro h
      obtain ⟨b, more, hb, hmore, rfl⟩ := List.forall₂_cons_left_iff.1 h
      rw [hb, ih.2 hmore]
      rfl

namespace Usage

/-! ## The first column -/

theorem exists_eq_formatWidth {usages : List Usage} (h : usages ≠ []) :
    ∃ u ∈ usages, u.format.utf8ByteSize = formatWidth usages := by
  rw [formatWidth_eq_max?]
  cases hmax : (usages.map fun u => u.format.utf8ByteSize).max? with
  | none => exact absurd (List.map_eq_nil_iff.1 (List.max?_eq_none_iff.1 hmax)) h
  | some n => exact List.mem_map.1 (List.max?_mem hmax)

theorem spare?_eq_some_iff {columnWidth n : Nat} {u : Usage} :
    spare? columnWidth u = some n ↔ u.format.utf8ByteSize + n = columnWidth := by
  rw [spare?]
  split
  · rw [Option.some.injEq]
    omega
  · constructor
    · intro h
      cases h
    · intro h
      omega

theorem utf8ByteSize_blanks (n : Nat) : (blanks n).utf8ByteSize = n := by
  induction n with
  | zero => rfl
  | succ n ih =>
    have hcons : blanks (n + 1) = String.singleton ' ' ++ blanks n := by
      rw [blanks, List.replicate_succ, String.ofList_cons, blanks]
    have hspace : ' '.utf8Size = 1 := by decide
    rw [hcons, String.utf8ByteSize_append, String.utf8ByteSize_singleton, ih, hspace, Nat.add_comm]

/-! ## Lines -/

/-- A line of a table whose second column starts at a byte offset: four spaces, the format, two
spaces or more, and the short text. -/
structure IsRowAt (start : Nat) (u : Usage) (line : String) : Prop where
  cells : ∃ n, 2 ≤ n ∧ line = blanks 4 ++ u.format ++ blanks n ++ u.short
  second : dropBytes? start line.toList = some u.short.toList

/-- The spaces behind a format fill up what it leaves of the first column. -/
theorem isRowAt_of_row? {columnWidth : Nat} {u : Usage} {line : String}
    (h : row? columnWidth u = some line) : IsRowAt (4 + columnWidth + 2) u line := by
  obtain ⟨n, hn, rfl⟩ := Option.map_eq_some_iff.1 h
  have hwidth : u.format.utf8ByteSize + n = columnWidth := spare?_eq_some_iff.1 hn
  -- the size of the format cancels, so that all short texts have as much before them
  have hsize : (blanks margin ++ u.format ++ blanks (gap + n)).utf8ByteSize =
      4 + columnWidth + 2 := by
    rw [String.utf8ByteSize_append, String.utf8ByteSize_append, utf8ByteSize_blanks,
      utf8ByteSize_blanks, margin, gap]
    omega
  constructor
  · exact ⟨gap + n, Nat.le_add_right _ _, rfl⟩
  · rw [← hsize]
    exact dropBytes?_utf8ByteSize _ _

theorem newline_notMem_blanks (n : Nat) : '\n' ∉ (blanks n).toList := by
  rw [toList_blanks]
  intro h
  exact absurd (List.eq_of_mem_replicate h) (by decide)

/-- A line holds the newlines of its texts and no other. -/
theorem IsRowAt.newline_mem_iff {start : Nat} {u : Usage} {line : String}
    (h : IsRowAt start u line) :
    '\n' ∈ line.toList ↔ '\n' ∈ u.format.toList ∨ '\n' ∈ u.short.toList := by
  obtain ⟨n, -, rfl⟩ := h.cells
  simp only [String.toList_append, List.mem_append, newline_notMem_blanks, false_or, or_false]

/-- Texts without a newline make lines without one. -/
theorem newline_notMem_of_rows {start : Nat} {usages : List Usage} {lines : List String}
    (hrows : List.Forall₂ (IsRowAt start) usages lines)
    (h : ∀ u ∈ usages, '\n' ∉ u.format.toList ∧ '\n' ∉ u.short.toList) :
    ∀ line ∈ lines, '\n' ∉ line.toList := by
  induction hrows with
  | nil => exact fun _ hline => absurd hline List.not_mem_nil
  | cons hrow _ ih =>
    obtain ⟨hu, hmore⟩ := List.forall_mem_cons.1 h
    refine List.forall_mem_cons.2 ⟨?_, ih hmore⟩
    rw [hrow.newline_mem_iff, not_or]
    exact hu

/-- Each line of the table has its own newline. -/
theorem toList_join_ended (lines : List String) :
    (String.join (lines.map (· ++ "\n"))).toList =
      (lines.map String.toList).flatMap fun line => line ++ ['\n'] := by
  have hline (line : String) : (line ++ "\n").toList = line.toList ++ ['\n'] :=
    String.toList_append
  rw [String.toList_join, List.flatMap_map, List.flatMap_map, funext hline]

/-- **The table of usages is a table of two columns.** Let no format and no short text hold a
newline. Then the table is cut at its newlines into one line for each usage, in their order, and
nothing else. Each line is four spaces, the format, two spaces or more, and the short text, which
starts behind as many bytes on all lines: four, those of the longest format, and two. No format is
longer than that, so what is left of the column behind it is never less than nothing. -/
theorem table_in_two_columns (usages : List Usage)
    (h : ∀ u ∈ usages, '\n' ∉ u.format.toList ∧ '\n' ∉ u.short.toList) :
    (∀ u ∈ usages, u.format.utf8ByteSize ≤ formatWidth usages) ∧
    (usages ≠ [] → ∃ u ∈ usages, u.format.utf8ByteSize = formatWidth usages) ∧
    ∃ lines, rows? usages = some lines ∧
      pieces (· == '\n') (table usages).toList = lines.map String.toList ++ [[]] ∧
      List.Forall₂ (IsRowAt (4 + formatWidth usages + 2)) usages lines := by
  refine ⟨fun _ => le_formatWidth, exists_eq_formatWidth, ?_⟩
  obtain ⟨lines, hlines⟩ := Option.isSome_iff_exists.1 (isSome_rows? usages)
  have hrows : List.Forall₂ (IsRowAt (4 + formatWidth usages + 2)) usages lines :=
    (mapM_eq_some_iff.1 hlines).imp fun _ _ => isRowAt_of_row?
  have htable : (table usages).toList =
      (lines.map String.toList).flatMap fun line => line ++ ['\n'] := by
    rw [table, Option.get_of_eq_some _ hlines, toList_join_ended]
  refine ⟨lines, hlines, ?_, hrows⟩
  rw [htable]
  apply pieces_flatMap_ended (by decide)
  intro line hline
  obtain ⟨text, htext, rfl⟩ := List.mem_map.1 hline
  exact forall_beq_eq_false_iff.2 (newline_notMem_of_rows hrows h text htext)

/-- Three usages. The longest format has the most bytes, but not the most characters. -/
def unevenUsages : List Usage :=
  [{ format := "--größe", short := "Wie groß?", long := "" },
    { format := "-日本語", short := "", long := "\n" },
    { format := "", short := "  x", long := "" }]

theorem uneven_usages_line_up :
    (∀ u ∈ unevenUsages, '\n' ∉ u.format.toList ∧ '\n' ∉ u.short.toList) ∧
    ∃ lines, rows? unevenUsages = some lines ∧
      pieces (· == '\n') (table unevenUsages).toList = lines.map String.toList ++ [[]] ∧
      List.Forall₂ (IsRowAt 16) unevenUsages lines := by
  have h : ∀ u ∈ unevenUsages, '\n' ∉ u.format.toList ∧ '\n' ∉ u.short.toList := by decide
  have hwidth : formatWidth unevenUsages = 10 := by decide
  obtain ⟨-, -, hlines⟩ := table_in_two_columns unevenUsages h
  rw [hwidth] at hlines
  exact ⟨h, hlines⟩

end Usage

end CompileFlags
