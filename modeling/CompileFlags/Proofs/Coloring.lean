import CompileFlags.Proofs.Plans
import CompileFlags.Proofs.ReadArguments
import CompileFlags.Proofs.SaidOptions
import CompileFlags.Proofs.Slices
import CompileFlags.Text.Escape
import Mathlib.Data.List.Forall2

/-!
# Colors do not change the table

The table of flags is styled before it is aligned. The sequences that set styles have no width and
stand in no cell's way, so aligning a styled text comes to the same as styling the aligned one: what
is left without the sequences is the table without colors, with the same cells, the same order and
the same padding.

* `Styled` — a text with sequences that set styles, and the text without them.
* `Styled.withoutSequences_eq`, `Styled.unstyled_eq` — deleting the sequences gives the text.
* `Styled.align` — a styled text is aligned as the text is.
* `Row.styled_table` — the table in color is the table without, styled.
* `notMem_normalize` — resolving the paths of flags brings in only what the root is spelled with.
* `Program.table_apart_from_colors` — the same for what is printed.
-/

namespace CompileFlags

namespace Text

/-- A text without the sequences that tell a terminal what to do. -/
def withoutSequences (cs : List Char) : List Char :=
  match cs with
  | [] => []
  | c :: rest =>
    if c = escapeChar then withoutSequences (sequence rest).2 else c :: withoutSequences rest
termination_by cs.length
decreasing_by
  · have := length_sequence_le rest; simp; omega
  · simp

end Text

open Text (escapeChar withoutSequences)

/-! ## Styled texts -/

/-- A text with sequences that set styles, and the text without them, in which no escape stands. -/
inductive Styled : List Char → List Char → Prop where
  | nil : Styled [] []
  | char {c : Char} {a b : List Char} (hc : c ≠ escapeChar) (h : Styled a b) :
      Styled (c :: a) (c :: b)
  | sequence (number : List Char) {a b : List Char} (hn : number.all Char.isDigit = true)
      (h : Styled a b) : Styled (Style.sequence number ++ a) b

namespace Styled

variable {a b a' b' : List Char}

theorem of_notMem {cs : List Char} (h : escapeChar ∉ cs) : Styled cs cs := by
  induction cs with
  | nil => exact .nil
  | cons c cs ih =>
    rw [List.mem_cons, not_or] at h
    exact .char (Ne.symm h.1) (ih h.2)

theorem append (h : Styled a b) (h' : Styled a' b') : Styled (a ++ a') (b ++ b') := by
  induction h with
  | nil => exact h'
  | char hc _ ih => exact .char hc ih
  | sequence number hn _ ih =>
    rw [List.append_assoc]
    exact .sequence number hn ih

theorem flatten {as bs : List (List Char)} (h : List.Forall₂ Styled as bs) :
    Styled as.flatten bs.flatten := by
  induction h with
  | nil => exact .nil
  | cons h _ ih => exact h.append ih

/-- A text in a style and the text. -/
theorem apply (s : Style) {text : List Char} (h : escapeChar ∉ text) :
    Styled (s.apply true text) (s.apply false text) := by
  have hend : Styled (text ++ Style.reset) text := by
    have := (of_notMem h).append (sequence ['0'] rfl nil)
    simpa [Style.reset] using this
  cases s with
  | label =>
    exact sequence ['0'] rfl (sequence ['1'] rfl hend)
  | note =>
    exact sequence ['0'] rfl (sequence ['1'] rfl (sequence ['3', '4'] rfl hend))

/-! ### Deleting sequences -/

theorem afterEnd?_number {number : List Char} (hn : number.all Char.isDigit = true)
    (rest : List Char) : afterEnd? (number ++ 'm' :: rest) = some rest := by
  induction number with
  | nil => rfl
  | cons c number ih =>
    rw [List.all_cons, Bool.and_eq_true] at hn
    have hc : c ≠ 'm' := by
      rintro rfl
      exact absurd hn.1 (by decide)
    rw [List.cons_append, afterEnd?, if_neg hc, ih hn.2]

theorem throughFirst_number {number : List Char} (hn : number.all Char.isDigit = true)
    (rest : List Char) :
    Text.throughFirst Text.isFinal (number ++ 'm' :: rest) = (number ++ ['m'], rest) := by
  induction number with
  | nil => rfl
  | cons c number ih =>
    rw [List.all_cons, Bool.and_eq_true] at hn
    have hc : Text.isFinal c = false := by
      have hdigit := hn.1
      simp only [Char.isDigit, Bool.and_eq_true, decide_eq_true_eq] at hdigit
      simp only [Text.isFinal, Bool.and_eq_false_iff, decide_eq_false_iff_not]
      exact .inl fun h => absurd (Nat.le_trans h hdigit.2) (by decide)
    rw [List.cons_append, Text.throughFirst, hc, ih hn.2]
    rfl

/-- The sequences that a table looks for are the ones that were set. -/
theorem unstyled_eq (h : Styled a b) : unstyled a = b := by
  induction h with
  | nil => rw [unstyled]
  | @char c a b hc h ih =>
    cases a with
    | nil =>
      rw [unstyled] at ih
      rw [← ih, unstyled]
    | cons d a => rw [unstyled, if_neg fun hstart => hc hstart.1, ih]
  | @sequence number a b hn h ih =>
    have hend := afterEnd?_number hn a
    rw [Style.sequence, List.append_assoc, List.append_assoc]
    show unstyled ('\x1B' :: '[' :: (number ++ 'm' :: a)) = b
    rw [unstyled, if_pos ⟨rfl, rfl⟩]
    split
    · rename_i rest hrest
      rw [hend, Option.some.injEq] at hrest
      rw [← hrest, ih]
    · rename_i hnone
      rw [hend] at hnone
      cases hnone

/-- The sequences that a terminal looks for are the ones that were set. -/
theorem withoutSequences_eq (h : Styled a b) : withoutSequences a = b := by
  induction h with
  | nil => rw [withoutSequences]
  | char hc h ih => rw [withoutSequences, if_neg hc, ih]
  | @sequence number a b hn h ih =>
    rw [Style.sequence, List.append_assoc, List.append_assoc]
    show withoutSequences ('\x1B' :: '[' :: (number ++ 'm' :: a)) = b
    have hescape : '\x1B' = escapeChar := rfl
    rw [withoutSequences, if_pos hescape, Text.sequence, throughFirst_number hn, ih]

theorem notMem (h : Styled a b) : escapeChar ∉ b := by
  induction h with
  | nil => exact List.not_mem_nil
  | char hc _ ih => exact List.not_mem_cons_of_ne_of_not_mem hc.symm ih
  | sequence _ _ _ ih => exact ih

/-! ### Alignment -/

/-- A styled cell is as wide as the cell. -/
theorem cellWidth_eq (h : Styled a b) : Table.cellWidth a = Table.cellWidth b := by
  rw [Table.cellWidth, Table.cellWidth, h.unstyled_eq, (of_notMem h.notMem).unstyled_eq]

/-- A sequence holds nothing but the escape, the bracket, digits and the end. -/
theorem notMem_sequence {c : Char} (hc : c ∉ ['\x1B', '[', 'm']) (hd : c.isDigit = false)
    {number : List Char} (hn : number.all Char.isDigit = true) : c ∉ Style.sequence number := by
  intro h
  have hnumber : c ∉ number := fun hmem => by simp [List.all_eq_true.1 hn c hmem] at hd
  simp only [Style.sequence, List.mem_append, List.mem_cons, List.not_mem_nil, or_false] at h hc
  tauto

/-- Where no sequence holds the separator, a styled text is cut where the text is. -/
theorem pieces {sep : Char} (hsep : sep ∉ ['\x1B', '[', 'm']) (hd : sep.isDigit = false)
    (h : Styled a b) :
    List.Forall₂ Styled (CompileFlags.pieces (· == sep) a) (CompileFlags.pieces (· == sep) b) := by
  induction h with
  | nil => exact .cons .nil .nil
  | @char c a b hc h ih =>
    obtain ⟨piece, more, hstyled⟩ := List.exists_cons_of_ne_nil (pieces_ne_nil (· == sep) a)
    obtain ⟨piece', more', hpieces⟩ := List.exists_cons_of_ne_nil (pieces_ne_nil (· == sep) b)
    rw [CompileFlags.pieces, CompileFlags.pieces]
    rw [hstyled, hpieces] at ih ⊢
    obtain ⟨hpiece, hmore⟩ := List.forall₂_cons.1 ih
    split
    · exact .cons .nil ih
    · exact .cons (.char hc hpiece) hmore
  | @sequence number a b hn h ih =>
    -- the sequence only makes the first piece longer
    have hfree : ∀ c ∈ Style.sequence number, (c == sep) = false :=
      forall_beq_eq_false_iff.2 (notMem_sequence hsep hd hn)
    obtain ⟨piece, more, hstyled⟩ := List.exists_cons_of_ne_nil (pieces_ne_nil (· == sep) a)
    obtain ⟨piece', more', hpieces⟩ := List.exists_cons_of_ne_nil (pieces_ne_nil (· == sep) b)
    rw [pieces_append_of_forall_not hfree hstyled]
    rw [hstyled, hpieces] at ih
    rw [hpieces]
    obtain ⟨hpiece, hmore⟩ := List.forall₂_cons.1 ih
    exact .cons (.sequence number hn hpiece) hmore

theorem cells (h : Styled a b) :
    List.Forall₂ (List.Forall₂ Styled) (Table.cells a) (Table.cells b) := by
  rw [Table.cells, Table.cells, List.forall₂_map_left_iff, List.forall₂_map_right_iff]
  exact (h.pieces (by decide) (by decide)).imp fun _ _ hline => hline.pieces (by decide) (by decide)

theorem cellWidths_eq {as bs : List (List Char)} (h : List.Forall₂ Styled as bs) :
    Table.cellWidths as = Table.cellWidths bs := by
  have hwidths : as.map (fun cell => max Table.minWidth (Table.cellWidth cell)) =
      bs.map fun cell => max Table.minWidth (Table.cellWidth cell) := by
    induction h with
    | nil => rfl
    | cons hcell _ ih => rw [List.map_cons, List.map_cons, hcell.cellWidth_eq, ih]
  rw [Table.cellWidths, Table.cellWidths, List.map_dropLast, List.map_dropLast, hwidths]

/-- Styled lines have the widths of the lines. -/
theorem columnWidths_eq {as bs : List (List (List Char))}
    (h : List.Forall₂ (List.Forall₂ Styled) as bs) :
    Table.columnWidths as = Table.columnWidths bs := by
  have hwidths : as.map Table.cellWidths = bs.map Table.cellWidths := by
    induction h with
    | nil => rfl
    | cons hline _ ih => rw [List.map_cons, List.map_cons, cellWidths_eq hline, ih]
  rw [Table.columnWidths, Table.columnWidths, hwidths]

/-- Filling up puts as many spaces behind a styled cell as behind the cell. -/
theorem fill {as bs : List (List Char)} (h : List.Forall₂ Styled as bs) (widths : List Nat) :
    Styled (Table.fill as widths) (Table.fill bs widths) := by
  induction h generalizing widths with
  | nil => exact .nil
  | cons hcell hcells ih =>
    cases widths with
    | nil => exact hcell.append (.flatten hcells)
    | cons w widths =>
      rw [Table.fill, Table.fill, hcell.cellWidth_eq]
      have hspaces (n : Nat) : Styled (List.replicate n ' ') (List.replicate n ' ') :=
        of_notMem fun hmem => absurd (List.eq_of_mem_replicate hmem) (by decide)
      exact (hcell.append (hspaces _)).append (ih widths)

theorem joinPieces {as bs : List (List Char)} {sep : List Char} (hsep : escapeChar ∉ sep)
    (h : List.Forall₂ Styled as bs) :
    Styled (CompileFlags.joinPieces sep as) (CompileFlags.joinPieces sep bs) := by
  induction h with
  | nil => exact .nil
  | cons hpiece hmore ih =>
    cases hmore with
    | nil => exact hpiece
    | cons _ _ => exact (hpiece.append (of_notMem hsep)).append ih

/-- A styled text is aligned as the text is. -/
theorem align (h : Styled a b) : Styled (Table.align a) (Table.align b) := by
  have hlines (widths : List (List Nat)) {as bs : List (List (List Char))}
      (hcells : List.Forall₂ (List.Forall₂ Styled) as bs) :
      List.Forall₂ Styled (List.zipWith Table.fill as widths)
        (List.zipWith Table.fill bs widths) := by
    induction hcells generalizing widths with
    | nil => exact .nil
    | cons hline _ ih =>
      cases widths with
      | nil => exact .nil
      | cons ws widths => exact .cons (fill hline ws) (ih widths)
  rw [Table.align, Table.align, columnWidths_eq h.cells]
  exact joinPieces (by decide) (hlines _ h.cells)

end Styled

/-! ## Tables -/

/-- A row without an escape in any of its columns. -/
structure Row.Unescaped (r : Row) : Prop where
  kind : escapeChar ∉ r.kind.toList
  written : escapeChar ∉ r.written.toList
  resolved : escapeChar ∉ r.resolved.toList

/-- A line is the same in color, but for the style of its kind. -/
theorem Row.Unescaped.styled_line {r : Row} (h : r.Unescaped) :
    Styled (r.line true) (r.line false) := by
  have hend : escapeChar ∉ '\t' :: r.written.toList ++ '\t' :: r.resolved.toList ++ ['\n'] := by
    have htab : escapeChar ≠ '\t' := by decide
    have hnewline : escapeChar ≠ '\n' := by decide
    simp [h.written, h.resolved, htab, hnewline]
  simp only [Row.line, List.append_assoc] at hend ⊢
  refine Styled.append ?_ (.of_notMem hend)
  split
  · exact .of_notMem h.kind
  · exact .apply .note h.kind

/-- The table in color is the table, styled. -/
theorem Row.styled_table {rows : List Row} (h : ∀ r ∈ rows, r.Unescaped) :
    Styled (Row.table true rows).toList (Row.table false rows).toList := by
  have hheader : Styled (Style.label.apply true header) (Style.label.apply false header) :=
    .apply .label (by decide)
  have hlines : Styled (rows.flatMap (line true)) (rows.flatMap (line false)) := by
    rw [List.flatMap_def, List.flatMap_def]
    apply Styled.flatten
    rw [List.forall₂_map_left_iff, List.forall₂_map_right_iff, List.forall₂_same]
    exact fun r hr => (h r hr).styled_line
  rw [table, table, String.toList_ofList, String.toList_ofList]
  exact (hheader.append hlines).align

/-- What a text starts with stays at its start, if it ends no cell. -/
theorem Table.prefix_align {start : List Char} (hline : '\n' ∉ start) (hcell : '\t' ∉ start)
    (rest : List Char) : start <+: align (start ++ rest) := by
  obtain ⟨line, lines, hlines⟩ := List.exists_cons_of_ne_nil (pieces_ne_nil (· == '\n') rest)
  obtain ⟨cell, more, hcells⟩ := List.exists_cons_of_ne_nil (pieces_ne_nil (· == '\t') line)
  have hcut : cells (start ++ rest) =
      ((start ++ cell) :: more) :: lines.map (pieces (· == '\t')) := by
    rw [cells, pieces_append_of_forall_not (forall_beq_eq_false_iff.2 hline) hlines, List.map_cons,
      pieces_append_of_forall_not (forall_beq_eq_false_iff.2 hcell) hcells]
  have hfill (widths : List Nat) : start <+: fill ((start ++ cell) :: more) widths := by
    cases widths with
    | nil => exact ⟨cell ++ more.flatten, by simp [fill]⟩
    | cons w ws => exact ⟨cell ++ List.replicate (w - cellWidth (start ++ cell) + padding) ' ' ++
        fill more ws, by simp [fill]⟩
  have hjoin (first : List Char) (others : List (List Char)) :
      first <+: joinPieces ['\n'] (first :: others) := by
    cases others with
    | nil => exact List.prefix_rfl
    | cons next others => exact ⟨['\n'] ++ joinPieces ['\n'] (next :: others), by simp [joinPieces]⟩
  rw [align, hcut]
  exact (hfill _).trans (hjoin _ _)

/-- In color, a table starts with the style of its labels. -/
theorem Row.start_prefix_table (rows : List Row) :
    Style.label.start <+: (Row.table true rows).toList := by
  rw [table, String.toList_ofList, Style.apply, if_pos rfl, List.append_assoc, List.append_assoc]
  exact Table.prefix_align (by decide) (by decide) _

/-! ## Where no escape comes from -/

/-- Joining texts puts nothing between them but the separator. -/
theorem notMem_intercalate {c : Char} {sep : String} (hsep : c ∉ sep.toList) {parts : List String}
    (h : ∀ part ∈ parts, c ∉ part.toList) : c ∉ (String.intercalate sep parts).toList := by
  induction parts with
  | nil => simp
  | cons part rest ih =>
    have hpart := h part List.mem_cons_self
    have hrest := ih fun p hp => h p (List.mem_cons_of_mem _ hp)
    cases rest with
    | nil => simpa using hpart
    | cons next more =>
      simp only [String.intercalate_cons_cons, String.toList_append, List.mem_append, not_or]
      exact ⟨⟨hpart, hsep⟩, hrest⟩

/-- Resolving a path puts nothing to it but the root and a slash. -/
theorem Root.notMem_join {c : Char} (hc : c ≠ '/') {r : Root} (hne : r.text ≠ "")
    (hr : c ∉ r.text.toList) {path : String} (hpath : c ∉ path.toList) :
    c ∉ (r.join path).toList := by
  rw [Root.join_eq_resolved hne, Root.resolved]
  split
  · exact hpath
  · split <;> simp [hr, hpath, hc]

theorem Rewrite.notMem_result_ofEntry {c : Char} (hc : c ∉ "--sysroot=/".toList) {r : Root}
    (hne : r.text ≠ "") (hr : c ∉ r.text.toList) (pending : Bool) {entry : String}
    (hentry : c ∉ entry.toList) : c ∉ (ofEntry r pending entry).result.toList := by
  have hslash : c ≠ '/' := by
    rintro rfl
    exact hc (by decide)
  have hspelling : c ∉ "--sysroot=".toList := fun h => hc (by simp at h ⊢; tauto)
  cases pending with
  | true =>
    rw [result_ofEntry_value]
    exact Root.notMem_join hslash hne hr hentry
  | false =>
    by_cases hsysroot : ∃ path, entry = "--sysroot=" ++ path
    · obtain ⟨path, rfl⟩ := hsysroot
      rw [String.toList_append, List.mem_append, not_or] at hentry
      rw [result_ofEntry_sysroot, String.toList_append, List.mem_append, not_or]
      exact ⟨hspelling, Root.notMem_join hslash hne hr hentry.2⟩
    · rw [result_ofEntry_other r (not_exists.1 hsysroot)]
      exact hentry

theorem notMem_normalize {c : Char} (hc : c ∉ "--sysroot=/".toList) {flags : List String}
    (hflags : ∀ flag ∈ flags, c ∉ flag.toList) {root : Option Root}
    (hroot : ∀ r, root = some r → c ∉ r.text.toList) :
    ∀ flag ∈ normalize flags root, c ∉ flag.toList := by
  cases root with
  | none => exact hflags
  | some r =>
    by_cases hne : r.text = ""
    · rw [normalize_of_isEmpty flags (by rw [Root.isEmpty, String.isEmpty_iff, hne])]
      exact hflags
    · have hrewrites (pending : Bool) (entries : List String)
          (hentries : ∀ entry ∈ entries, c ∉ entry.toList) :
          ∀ rewrite ∈ rewrites r pending entries, c ∉ rewrite.result.toList := by
        induction entries generalizing pending with
        | nil => exact fun _ h => absurd h List.not_mem_nil
        | cons entry rest ih =>
          obtain ⟨hentry, hrest⟩ := List.forall_mem_cons.1 hentries
          rw [rewrites, List.forall_mem_cons]
          exact ⟨Rewrite.notMem_result_ofEntry hc hne (hroot r rfl) pending hentry, ih _ hrest⟩
      rw [normalize_of_text_ne_empty flags hne, List.forall_mem_map]
      exact hrewrites false flags hflags

theorem notMem_entryKind (entry : String) : escapeChar ∉ (entryKind entry).toList := by
  have hseparate : ∀ spelling ∈ separatePrefixes, escapeChar ∉ spelling.toList := by decide
  unfold entryKind
  split
  · exact hseparate entry ‹_›
  · split <;> decide

/-- A project without an escape in its flags or in its root. -/
structure Project.Unescaped (p : Project) : Prop where
  flags : ∀ flag ∈ p.catalog.flags ++ p.catalog.c ++ p.catalog.cpp, escapeChar ∉ flag.toList
  root : ∀ r, p.root = some r → escapeChar ∉ r.text.toList

/-- No row has an escape in it that neither the flags nor the root have. -/
theorem Project.Unescaped.rows {p : Project} (h : p.Unescaped) : ∀ r ∈ p.rows, r.Unescaped := by
  have hname (l : Language) : escapeChar ∉ l.name.toList := by cases l <;> decide
  have hmine (l : Language) (flag : String) (hflag : escapeChar ∉ flag.toList) :
      (Row.ofLanguageFlag l flag).Unescaped := ⟨hname l, hflag, hflag⟩
  obtain ⟨⟨hshared, hc⟩, hcpp⟩ : ((∀ flag ∈ p.catalog.flags, escapeChar ∉ flag.toList) ∧
      ∀ flag ∈ p.catalog.c, escapeChar ∉ flag.toList) ∧
      ∀ flag ∈ p.catalog.cpp, escapeChar ∉ flag.toList := by
    rw [← List.forall_mem_append, ← List.forall_mem_append]
    exact h.flags
  rw [p.rows_eq, List.forall_mem_append, List.forall_mem_append, List.forall_mem_map,
    List.forall_mem_map, List.forall_mem_map]
  refine ⟨⟨?_, fun flag hflag => hmine .c flag (hc flag hflag)⟩,
    fun flag hflag => hmine .cpp flag (hcpp flag hflag)⟩
  intro slice hslice
  have hentries : ∀ entry ∈ slice, escapeChar ∉ entry.toList := by
    intro entry hentry
    apply hshared
    rw [← flatten_slices p.catalog.flags]
    exact List.mem_flatten_of_mem hslice hentry
  exact ⟨notMem_entryKind _, notMem_intercalate (by decide) hentries,
    notMem_intercalate (by decide) (notMem_normalize (by decide) hentries h.root)⟩

/-! ## Runs -/

/-- The name of a choice. -/
def Color.name : Color → String
  | auto => "auto"
  | always => "always"
  | never => "never"

theorem Color.ofName_name (c : Color) : ofName c.name = .ok c := by
  cases c <;> rfl

namespace Program

/-- The table of a project in color is its table without, styled. -/
theorem styled_tableOf {p : Project} (h : p.Unescaped) (filter : Filter) :
    Styled (tableOf true filter p).toList (tableOf false filter p).toList :=
  Row.styled_table fun r hr => h.rows r (List.mem_of_mem_filter hr)

/-- **Colors do not change the table.** Take arguments that ask for the same table in each choice of
colors. Whatever the choice, and whether the output goes to a terminal or not, the runs end with the
same exit code. If they end well, and no flag of the catalog holds an escape, nor the root, then the
table that is always in color starts with the style of its labels and is, without its sequences, the
table that never is. This one is printed, too, if the color is left to the output and the output is
no terminal. -/
theorem table_apart_from_colors (files : Surroundings) (data : Bytes) (revision : Option String)
    {l : Loading} {filter : Filter} {args : Color → List Bytes}
    (hargs : ∀ color, Command.ofArguments (args color) =
      .ok (.onProject l (.table color filter))) :
    let printed (terminal : Bool) (color : Color) :=
      run { files, input := { data }, output := .unlimited, terminal, revision } (args color)
    (∀ terminal color, (printed terminal color).exitCode = (printed false .auto).exitCode) ∧
    ((printed false .auto).exitCode = 0 →
      ∃ p, (l.load files).result = .ok p ∧
        (p.Unescaped → ∃ colored : String, Style.label.start <+: colored.toList ∧ ∀ terminal,
          (printed terminal .always).output = Utf8.encode colored ∧
          (printed terminal .never).output =
            Utf8.encode (.ofList (withoutSequences colored.toList)) ∧
          (printed false .auto).output = (printed terminal .never).output)) := by
  intro printed
  cases hload : (l.load files).result with
  | error f =>
    have hplan (terminal : Bool) (color : Color) :
        planOf files terminal revision (args color) = .error f := by
      rw [planOf_onProject (hargs color), hload]
      rfl
    have hfails (terminal : Bool) (color : Color) : (printed terminal color).exitCode = 1 :=
      exitCode_of_planOf_error (hplan terminal color)
    clear_value printed
    refine ⟨fun terminal color => (hfails _ _).trans (hfails _ _).symm, fun h => ?_⟩
    rw [hfails] at h
    cases h
  | ok p =>
    have hprints (terminal : Bool) (color : Color) :
        (printed terminal color).output =
            Utf8.encode (tableOf (color.applies terminal) filter p) ∧
          (printed terminal color).exitCode = 0 := by
      have hplan : planOf files terminal revision (args color) =
          .ok (.text (tableOf (color.applies terminal) filter p)) := by
        rw [planOf_onProject (hargs color), hload]
        rfl
      obtain ⟨houtput, hending⟩ := run_of_planOf_ok hplan data
      exact ⟨houtput, Run.exitCode_of_ok hending⟩
    clear_value printed
    refine ⟨fun terminal color => (hprints _ _).2.trans (hprints _ _).2.symm, fun _ => ?_⟩
    refine ⟨p, rfl, fun hclean => ⟨tableOf true filter p, Row.start_prefix_table _, ?_⟩⟩
    intro terminal
    rw [(styled_tableOf hclean filter).withoutSequences_eq, String.ofList_toList,
      (hprints terminal .always).1, (hprints terminal .never).1, (hprints false .auto).1]
    exact ⟨rfl, rfl, rfl⟩

/-- The arguments for the table in a choice of colors. -/
def tableArguments (color : Color) : List Bytes :=
  ["catalog", "--color", color.name].map Utf8.encode

theorem ofArguments_tableArguments (color : Color) :
    Command.ofArguments (tableArguments color) =
      .ok (.onProject ⟨Loading.here, none, none⟩ (.table color {})) := by
  have hsaid : List.Forall₂ CommandLine.CatalogSays [.color color] _ :=
    .cons (.color (Color.ofName_name color) .name) .nil
  have hcommand : CommandLine.catalogCommand ⟨false, ["--color", color.name].map Utf8.encode⟩ =
      .ok { color } :=
    CommandLine.catalogCommand_parts hsaid
  rw [Command.ofArguments, tableArguments, List.map_cons, CommandLine.commandOf_name rfl]
  show (CommandLine.catalogCommand _).map _ = _
  rw [hcommand]
  rfl

/-- The table of the built-in catalog in each choice of colors. -/
theorem builtin_table_apart_from_colors :
    let printed (color : Color) := run (emptyConsole .unlimited) (tableArguments color)
    (∀ color, Command.ofArguments (tableArguments color) =
      .ok (.onProject ⟨Loading.here, none, none⟩ (.table color {}))) ∧
    (printed .auto).exitCode = 0 ∧
    ∃ colored : String, Style.label.start <+: colored.toList ∧
      (printed .always).output = Utf8.encode colored ∧
      (printed .never).output = Utf8.encode (.ofList (withoutSequences colored.toList)) ∧
      (printed .auto).output = (printed .never).output := by
  intro printed
  have hloaded : (Loading.load (emptyConsole .unlimited).files
      ⟨Loading.here, none, none⟩).result.toOption.map (fun p =>
        (p.catalog.flags ++ p.catalog.c ++ p.catalog.cpp).all
          (fun flag => !flag.toList.contains escapeChar) &&
        p.root.all fun r => !r.text.toList.contains escapeChar) = some true := by
    decide +kernel
  obtain ⟨files, hconsole⟩ := exists_emptyConsole_eq
  rw [hconsole] at hloaded
  obtain ⟨p, hp, hclean⟩ := Option.map_eq_some_iff.1 hloaded
  have hload := toOption_eq_some_iff.1 hp
  have hunescaped : p.Unescaped := by
    simp only [Bool.and_eq_true, List.all_eq_true, Option.all_eq_true, Bool.not_eq_true',
      List.contains_eq_mem, decide_eq_false_iff_not] at hclean
    exact ⟨hclean.1, hclean.2⟩
  have hplan : planOf files false none (tableArguments .auto) =
      .ok (.text (tableOf false {} p)) := by
    rw [planOf_onProject (ofArguments_tableArguments .auto), hload]
    rfl
  have hzero := Run.exitCode_of_ok (run_of_planOf_ok hplan []).2
  obtain ⟨-, hsame⟩ := table_apart_from_colors files [] none ofArguments_tableArguments
  obtain ⟨q, hq, hcolors⟩ := hsame hzero
  rw [hload] at hq
  cases hq
  obtain ⟨colored, hstart, houtputs⟩ := hcolors hunescaped
  obtain ⟨halways, hnever, hauto⟩ := houtputs false
  simp only [printed, hconsole]
  exact ⟨ofArguments_tableArguments, hzero, colored, hstart, halways, hnever, hauto⟩

end Program

end CompileFlags
