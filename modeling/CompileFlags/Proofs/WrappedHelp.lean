import CompileFlags.Proofs.WrappedText
import CompileFlags.Usage

/-!
# Wrapped help texts

The long text of a usage is trimmed, cut into paragraphs, and each paragraph is put on one line and
wrapped. Of the whole text only spaces and newlines are lost. Every line of it is empty or starts
with eight spaces, and holds pieces that together take no more than the columns that are left.

* `Usage.inked_manual` — what is left of the help texts without their spaces and newlines.
* `Usage.exists_pieces_of_mem_longLines` — what stands on a line.
* `Usage.manual_loses_nothing` — both, and how wide a line is.
* `Usage.line_wider_than_its_pieces` — a sequence that goes on beyond a space makes a line wider.
-/

namespace CompileFlags

open Text

/-- Pieces are between the separators, in their order. -/
theorem flatMap_joinPieces {α β : Type} {f : α → List β} {sep : List α} (hsep : sep.flatMap f = [])
    (ps : List (List α)) :
    (joinPieces sep ps).flatMap f = ps.flatMap fun piece => piece.flatMap f := by
  induction ps with
  | nil => rfl
  | cons piece more ih =>
    cases more with
    | nil => simp [joinPieces]
    | cons next more =>
      rw [joinPieces_cons_of_ne_nil _ _ (by simp), List.flatMap_append, List.flatMap_append, hsep,
        ih, List.append_nil]
      rfl

theorem mem_joinPieces {α : Type} {sep : List α} {ps : List (List α)} {a : α}
    (h : a ∈ joinPieces sep ps) : a ∈ sep ∨ ∃ piece ∈ ps, a ∈ piece := by
  induction ps with
  | nil => exact absurd h List.not_mem_nil
  | cons piece more ih =>
    cases more with
    | nil => exact .inr ⟨piece, List.mem_cons_self, h⟩
    | cons next more =>
      rw [joinPieces_cons_of_ne_nil _ _ (by simp), List.mem_append, List.mem_append] at h
      rcases h with (h | h) | h
      · exact .inr ⟨piece, List.mem_cons_self, h⟩
      · exact .inl h
      · exact (ih h).imp_right fun ⟨p, hp, ha⟩ => ⟨p, List.mem_cons_of_mem _ hp, ha⟩

namespace Usage

/-! ## Paragraphs -/

theorem paragraphs_ne_nil (cs : List Char) : paragraphs cs ≠ [] := by
  fun_cases paragraphs cs <;> simp

/-- Only newlines are lost between paragraphs. -/
theorem inked_paragraphs (cs : List Char) : (paragraphs cs).flatMap inked = inked cs := by
  fun_induction paragraphs cs with
  | case1 rest ih =>
    rw [List.flatMap_cons, ih, inked_cons, inked_cons _ rest]
    rfl
  | case2 c rest hc hnone ih => exact absurd hnone (paragraphs_ne_nil rest)
  | case3 c rest hc first more hmore ih =>
    rw [hmore, List.flatMap_cons] at ih
    rw [List.flatMap_cons, inked_cons, List.append_assoc, ih, inked_cons c rest]
  | case4 => rfl

theorem mem_of_mem_paragraphs {cs paragraph : List Char} (h : paragraph ∈ paragraphs cs) :
    ∀ c ∈ paragraph, c ∈ cs := by
  fun_induction paragraphs cs generalizing paragraph with
  | case1 rest ih =>
    rcases List.mem_cons.1 h with rfl | h
    · exact fun _ hc => absurd hc List.not_mem_nil
    · exact fun c hc => List.mem_cons_of_mem _ (List.mem_cons_of_mem _ (ih h c hc))
  | case2 c rest hc hnone ih => exact absurd hnone (paragraphs_ne_nil rest)
  | case3 c rest hc first more hmore ih =>
    rw [hmore] at ih
    rcases List.mem_cons.1 h with rfl | h
    · intro d hd
      exact List.mem_cons.2 ((List.mem_cons.1 hd).imp_right (ih List.mem_cons_self d))
    · exact fun d hd => List.mem_cons_of_mem _ (ih (List.mem_cons_of_mem _ h) d hd)
  | case4 =>
    rw [List.mem_singleton.1 h]
    exact fun _ hc => absurd hc List.not_mem_nil

theorem inked_flattened (cs : List Char) : inked (flattened cs) = inked cs := by
  induction cs with
  | nil => rfl
  | cons c cs ih =>
    rw [flattened, List.map_cons, inked_cons, inked_cons c cs, ← ih]
    split
    · rename_i hc
      rw [hc]
      rfl
    · rfl

theorem mem_of_mem_flattened {cs : List Char} {c : Char} (h : c ∈ flattened cs) :
    c ≠ '\n' ∧ (c = ' ' ∨ c ∈ cs) := by
  obtain ⟨d, hd, rfl⟩ := List.mem_map.1 h
  split
  · exact ⟨by decide, .inl rfl⟩
  · exact ⟨‹_›, .inr hd⟩

theorem mem_of_mem_trim {cs : List Char} {c : Char} (h : c ∈ trim cs) : c ∈ cs := by
  rw [trim, List.mem_reverse] at h
  exact List.dropWhile_subset _ (List.mem_reverse.1 (List.dropWhile_subset _ h))

/-! ## Lines -/

theorem inked_blanks (n : Nat) : inked (blanks n).toList = [] := by
  rw [toList_blanks, inked_spaces]

/-- The lines of a paragraph lose nothing but spaces and newlines. -/
theorem inked_paragraphLines (cs : List Char) :
    ((paragraphLines cs).flatMap fun line => inked line.toList) = inked cs := by
  have hline (line : List Char) : inked (blanks indent ++ .ofList line).toList = inked line := by
    rw [String.toList_append, inked_append, inked_blanks, String.toList_ofList, List.nil_append]
  rw [paragraphLines, List.flatMap_map, funext hline]
  show (wrap _ _).flatMap inked = _
  rw [flatMap_inked_wrap, inked_flattened]

theorem inked_longLines (u : Usage) :
    (u.longLines.flatMap fun line => inked line.toList) = inked (trim u.long.toList) := by
  rw [longLines, flatMap_joinPieces rfl, List.flatMap_map, funext inked_paragraphLines]
  exact inked_paragraphs _

/-- **Nothing is lost**: all that is left of the help texts without spaces and newlines is what they
are made of. -/
theorem inked_manual (usages : List Usage) :
    inked (manual usages).toList =
      inked (usages.flatMap fun u => u.format.toList ++ trim u.long.toList) := by
  have hjoin (lines : List String) :
      inked (String.join (lines.map (· ++ "\n"))).toList =
        lines.flatMap fun line => inked line.toList := by
    have hline (line : String) : inked (line ++ "\n").toList = inked line.toList := by
      rw [String.toList_append, inked_append]
      exact List.append_nil _
    rw [String.toList_join, inked_flatMap, List.flatMap_map, funext hline]
  have hlines (u : Usage) : (u.lines.flatMap fun line => inked line.toList) =
      inked (u.format.toList ++ trim u.long.toList) := by
    rw [lines, List.flatMap_cons, inked_longLines, String.toList_append, inked_append, inked_blanks,
      List.nil_append, inked_append]
  rw [manual, hjoin, flatMap_joinPieces rfl, List.flatMap_map, funext hlines, inked_flatMap]

/-- A line of a long text is empty, or it is some pieces of a paragraph behind eight spaces. -/
theorem exists_pieces_of_mem_longLines {u : Usage} {line : String} (h : line ∈ u.longLines) :
    line = "" ∨
      ∃ paragraph ∈ paragraphs (trim u.long.toList),
        ∃ pieces ∈ fillLines (lineWidth - indent) [] 0
            (wrapPieces (lineWidth - indent) (flattened paragraph)),
          line = blanks indent ++ .ofList (lineText pieces) := by
  rcases mem_joinPieces h with h | ⟨lines, hlines, h⟩
  · exact .inl (List.mem_singleton.1 h)
  · obtain ⟨paragraph, hparagraph, rfl⟩ := List.mem_map.1 hlines
    obtain ⟨text, htext, rfl⟩ := List.mem_map.1 h
    obtain ⟨pieces, hpieces, rfl⟩ := List.mem_map.1 htext
    exact .inr ⟨paragraph, hparagraph, pieces, hpieces, rfl⟩

/-! ## Widths -/

/-- A line behind spaces is wider by these. -/
theorem width_blanks_append (n : Nat) (line : List Char) :
    width (blanks n ++ .ofList line).toList = n + width line := by
  rw [String.toList_append, toList_blanks, String.toList_ofList,
    (isComplete_spaces n).width_append, width_spaces]

/-- No piece of a text without an escape holds one. -/
theorem notMem_of_mem_wrapPieces {limit : Nat} {cs : List Char} (h : escapeChar ∉ cs) {p : Piece}
    (hp : p ∈ wrapPieces limit cs) : escapeChar ∉ p.text := by
  intro hmem
  apply h
  rw [← flatMap_whole_wrapPieces limit cs]
  exact List.mem_flatMap.2 ⟨p, hp, List.mem_append_left _ hmem⟩

/-- The pieces of a line and the spaces in front of them are not wider than a line. -/
theorem lineColumns_of_mem_paragraph {cs : List Char} {pieces : List Piece}
    (h : pieces ∈ fillLines (lineWidth - indent) [] 0 (wrapPieces (lineWidth - indent) cs)) :
    indent + lineColumns pieces ≤ lineWidth := by
  have hlimit : 2 ≤ lineWidth - indent := by decide
  have hnone : lineColumns [] ≤ lineWidth - indent := Nat.zero_le _
  have hcolumns := lineColumns_of_mem_fillLines hnone
    (fun p hp => width_of_mem_wrapPieces hlimit hp) pieces h
  have hindent : indent ≤ lineWidth := by decide
  omega

/-- Trimming, cutting and flattening bring in no escape, so without one no sequence goes on beyond a
piece. -/
theorem isComplete_of_escape_notMem {u : Usage} (h : escapeChar ∉ u.long.toList)
    {paragraph : List Char} (hparagraph : paragraph ∈ paragraphs (trim u.long.toList)) {limit : Nat}
    {p : Piece} (hp : p ∈ wrapPieces limit (flattened paragraph)) : IsComplete p.text := by
  apply isComplete_of_notMem
  apply notMem_of_mem_wrapPieces ?_ hp
  intro hmem
  rcases (mem_of_mem_flattened hmem).2 with hspace | hmem
  · exact absurd hspace (by decide)
  · exact h (mem_of_mem_trim (mem_of_mem_paragraphs hparagraph _ hmem))

/-- **Wrapped help texts lose nothing.** Without their spaces and newlines, the help texts of usages
are the formats and the trimmed long texts, in order. Every line of a long text is empty, or holds
pieces of a paragraph that follow each other, behind eight spaces. Their columns, with the spaces
between them, are 79 at most with those in front, however long a word is, and this is how wide the
line is if no terminal sequence goes on beyond the end of a piece. No line is wider than 79 columns
if the long text holds no escape. -/
theorem manual_loses_nothing (usages : List Usage) :
    inked (manual usages).toList =
      inked (usages.flatMap fun u => u.format.toList ++ trim u.long.toList) ∧
    ∀ u ∈ usages, ∀ line ∈ u.longLines,
      '\n' ∉ line.toList ∧
      (line = "" ∨
        ∃ paragraph ∈ paragraphs (trim u.long.toList), ∃ pieces : List Piece,
          pieces <:+: wrapPieces (lineWidth - indent) (flattened paragraph) ∧
          line = blanks 8 ++ .ofList (lineText pieces) ∧
          8 + lineColumns pieces ≤ 79 ∧
          ((∀ p ∈ pieces.dropLast, IsComplete p.text) →
            width line.toList = 8 + lineColumns pieces)) ∧
      (escapeChar ∉ u.long.toList → width line.toList ≤ 79) := by
  refine ⟨inked_manual usages, ?_⟩
  intro u _ line hline
  rcases exists_pieces_of_mem_longLines hline with
    rfl | ⟨paragraph, hparagraph, pieces, hpieces, rfl⟩
  · have hwidth : width "".toList = 0 := by rw [width_eq_total, String.toList_empty, units]; rfl
    exact ⟨List.not_mem_nil, .inl rfl, fun _ => by rw [hwidth]; exact Nat.zero_le _⟩
  · have hfits : 8 + lineColumns pieces ≤ 79 := lineColumns_of_mem_paragraph hpieces
    have hwidth (h : ∀ p ∈ pieces.dropLast, IsComplete p.text) :
        width (blanks 8 ++ .ofList (lineText pieces)).toList = 8 + lineColumns pieces := by
      rw [width_blanks_append, width_lineText h]
    have hslice : pieces <:+: wrapPieces (lineWidth - indent) (flattened paragraph) := by
      rw [← List.nil_append (wrapPieces _ _), ← flatten_fillLines (lineWidth - indent) [] 0]
      exact List.infix_of_mem_flatten hpieces
    refine ⟨?_, .inr ⟨paragraph, hparagraph, pieces, hslice, rfl, hfits, hwidth⟩, ?_⟩
    · rw [String.toList_append, toList_blanks, String.toList_ofList, List.mem_append, not_or]
      refine ⟨fun h => absurd (List.eq_of_mem_replicate h) (by decide), fun h => ?_⟩
      exact (mem_of_mem_flattened (mem_of_mem_lineText hpieces h)).1 rfl
    · intro hescape
      have hcomplete : ∀ p ∈ pieces.dropLast, IsComplete p.text := fun p hp =>
        isComplete_of_escape_notMem hescape hparagraph (hslice.subset (List.dropLast_subset _ hp))
      show width (blanks 8 ++ .ofList (lineText pieces)).toList ≤ 79
      rw [hwidth hcomplete]
      exact hfits

/-- **A line can be wider than its pieces.** Each of two words is all sequence, so it has no width.
When they stand on one line, the bracket of the second ends the sequence of the first, and the
digits behind it are shown. -/
theorem line_wider_than_its_pieces :
    let u : Usage :=
      { format := "-x", short := "s",
        long := .ofList (['\x1B', '[', ' ', '\x1B', '['] ++ List.replicate 72 '1' ++ ['m']) }
    ∃ line ∈ u.longLines, line ≠ "" ∧ 79 < width line.toList := by
  decide +kernel

end Usage

end CompileFlags
