import CompileFlags.Text.Wrap

/-!
# What wrapping keeps, and how wide lines are

Wrapping cuts a text into pieces and gathers them into lines. The pieces with their spaces are the
whole text, and all that a line drops are the spaces at its end. A line is filled by the widths of
its pieces, each of which is found on its own. It is as wide as they are together if no terminal
sequence goes on beyond the end of a piece; a piece in which one is left open swallows what follows,
and what it swallows cannot start a sequence any more.

* `flatMap_whole_wrapPieces`, `flatten_fillLines`, `lineText_append` — nothing but spaces is lost.
* `width_of_mem_wrapPieces` — no piece is wider than a line.
* `lineColumns_of_mem_fillLines` — no line has more than its share of pieces.
* `width_lineText` — how wide a line is whose sequences end in the pieces that they start in.
-/

namespace CompileFlags.Text

/-! ## Pieces are the text -/

theorem replicate_takeWhile_space (cs : List Char) :
    List.replicate (cs.takeWhile (· == ' ')).length ' ' = cs.takeWhile (· == ' ') := by
  symm
  rw [List.eq_replicate_iff]
  refine ⟨rfl, fun c hc => ?_⟩
  exact beq_iff_eq.1 (List.all_eq_true.1 List.all_takeWhile c hc)

/-- The words with the spaces after them are the text. -/
theorem flatMap_whole_words (cs : List Char) : (words cs).flatMap Piece.whole = cs := by
  fun_induction words cs with
  | case1 => rfl
  | case2 rest ih =>
    rw [List.flatMap_cons, ih, Piece.whole, List.replicate_succ, replicate_takeWhile_space]
    simp [List.takeWhile_append_dropWhile]
  | case3 c rest hc after ih =>
    rw [List.flatMap_cons, ih, Piece.whole, replicate_takeWhile_space, List.append_assoc,
      List.takeWhile_append_dropWhile, List.cons_append, List.takeWhile_append_dropWhile]

theorem hyphenParts_ne_nil (before : Option Char) (cs : List Char) :
    hyphenParts before cs ≠ [] := by
  cases cs with
  | nil => simp [hyphenParts]
  | cons c rest =>
    rw [hyphenParts]
    split
    · simp
    · split <;> simp

theorem flatten_hyphenParts (before : Option Char) (cs : List Char) :
    (hyphenParts before cs).flatten = cs := by
  induction cs generalizing before with
  | nil => rfl
  | cons c rest ih =>
    have hrest := ih (some c)
    rw [hyphenParts]
    split
    · rw [List.flatten_cons, hrest, List.singleton_append]
    · split
      · rename_i hnil
        exact absurd hnil (hyphenParts_ne_nil _ _)
      · rename_i part more hparts
        rw [hparts] at hrest
        rw [List.flatten_cons, List.cons_append, ← List.flatten_cons, hrest]

theorem flatten_breakApart (limit : Nat) (cs : List Char) : (breakApart limit cs).flatten = cs := by
  rw [breakApart]
  split
  · simp
  · rw [flatten_gatherUnits, flatten_units]

theorem breakApart_ne_nil (limit : Nat) (cs : List Char) : breakApart limit cs ≠ [] := by
  rw [breakApart]
  split
  · simp
  · cases units cs with
    | nil => simp [gatherUnits]
    | cons unit rest =>
      have hstart (parts : List (List Char)) : startWith unit.1 parts ≠ [] := by
        cases parts <;> simp [startWith]
      rw [gatherUnits]
      split
      · simp
      · exact hstart _

theorem flatMap_whole_piecesOf (spaces : Nat) {parts : List (List Char)} (h : parts ≠ []) :
    (piecesOf spaces parts).flatMap Piece.whole = parts.flatten ++ List.replicate spaces ' ' := by
  induction parts with
  | nil => exact absurd rfl h
  | cons part more ih =>
    cases more with
    | nil => simp [piecesOf, Piece.whole]
    | cons next more =>
      rw [piecesOf, List.flatMap_cons, ih (by simp), Piece.whole]
      · simp
      · simp

/-- Cutting loses nothing: the pieces with the spaces after them are the text. -/
theorem flatMap_whole_wrapPieces (limit : Nat) (cs : List Char) :
    (wrapPieces limit cs).flatMap Piece.whole = cs := by
  have hword (word : Piece) :
      (piecesOf word.spaces ((hyphenParts none word.text).flatMap (breakApart limit))).flatMap
        Piece.whole = word.whole := by
    have hflat : ((hyphenParts none word.text).flatMap (breakApart limit)).flatten = word.text := by
      rw [List.flatMap_def, List.flatten_flatten, List.map_map]
      simp [Function.comp_def, flatten_breakApart, flatten_hyphenParts]
    have hne : (hyphenParts none word.text).flatMap (breakApart limit) ≠ [] := by
      obtain ⟨part, more, hparts⟩ :=
        List.exists_cons_of_ne_nil (hyphenParts_ne_nil none word.text)
      simp [hparts, breakApart_ne_nil]
    rw [flatMap_whole_piecesOf _ hne, hflat, Piece.whole]
  rw [wrapPieces, List.flatMap_assoc, funext hword, flatMap_whole_words]

/-! ## Lines are the pieces -/

theorem flatten_fillLines (limit : Nat) (line : List Piece) (used : Nat) (ps : List Piece) :
    (fillLines limit line used ps).flatten = line ++ ps := by
  induction ps generalizing line used with
  | nil => simp [fillLines]
  | cons p rest ih =>
    simp only [fillLines]
    split <;> simp [ih]

theorem lineText_cons_cons (p next : Piece) (more : List Piece) :
    lineText (p :: next :: more) = p.whole ++ lineText (next :: more) := by
  simp [lineText]

/-- A line is its pieces, but for spaces at its end. -/
theorem lineText_append (line : List Piece) :
    ∃ n, line.flatMap Piece.whole = lineText line ++ List.replicate n ' ' := by
  induction line with
  | nil => exact ⟨0, rfl⟩
  | cons p more ih =>
    cases more with
    | nil => exact ⟨p.spaces, by simp [lineText, Piece.whole]⟩
    | cons next more =>
      obtain ⟨n, hn⟩ := ih
      exact ⟨n, by rw [List.flatMap_cons, hn, lineText_cons_cons, List.append_assoc]⟩

theorem mem_of_mem_lineText {limit : Nat} {cs : List Char} {line : List Piece}
    (hline : line ∈ fillLines limit [] 0 (wrapPieces limit cs)) {c : Char}
    (hc : c ∈ lineText line) : c ∈ cs := by
  obtain ⟨n, hn⟩ := lineText_append line
  have hwhole : c ∈ line.flatMap Piece.whole := by
    rw [hn]
    exact List.mem_append_left _ hc
  obtain ⟨p, hp, hcp⟩ := List.mem_flatMap.1 hwhole
  have hpieces : p ∈ wrapPieces limit cs := by
    rw [← List.nil_append (wrapPieces limit cs), ← flatten_fillLines limit [] 0]
    exact List.mem_flatten_of_mem hline hp
  rw [← flatMap_whole_wrapPieces limit cs]
  exact List.mem_flatMap.2 ⟨p, hpieces, hcp⟩

/-! ## Ink -/

/-- What is left of a text without its spaces and newlines. -/
def inked (cs : List Char) : List Char := cs.filter fun c => c ≠ ' ' ∧ c ≠ '\n'

theorem inked_append (a b : List Char) : inked (a ++ b) = inked a ++ inked b :=
  List.filter_append _ _

theorem inked_cons (c : Char) (cs : List Char) : inked (c :: cs) = inked [c] ++ inked cs :=
  inked_append [c] cs

theorem inked_flatMap {α : Type} (f : α → List Char) (l : List α) :
    inked (l.flatMap f) = l.flatMap fun a => inked (f a) := by
  induction l with
  | nil => rfl
  | cons a l ih => rw [List.flatMap_cons, inked_append, ih, List.flatMap_cons]

theorem inked_spaces (n : Nat) : inked (List.replicate n ' ') = [] := by
  rw [inked, List.filter_eq_nil_iff]
  intro c hc
  simp [List.eq_of_mem_replicate hc]

/-- Wrapping loses nothing but spaces. -/
theorem flatMap_inked_wrap (limit : Nat) (cs : List Char) :
    (wrap limit cs).flatMap inked = inked cs := by
  have hline (line : List Piece) : inked (lineText line) = inked (line.flatMap Piece.whole) := by
    obtain ⟨n, hn⟩ := lineText_append line
    rw [hn, inked_append, inked_spaces, List.append_nil]
  calc (wrap limit cs).flatMap inked
      = (fillLines limit [] 0 (wrapPieces limit cs)).flatMap fun line =>
          inked (line.flatMap Piece.whole) := by
        rw [wrap, List.flatMap_map]
        exact congrArg (List.flatMap · _) (funext hline)
    _ = inked ((fillLines limit [] 0 (wrapPieces limit cs)).flatten.flatMap Piece.whole) := by
        rw [← inked_flatMap, ← List.flatMap_id, List.flatMap_assoc]
        rfl
    _ = inked cs := by rw [flatten_fillLines, List.nil_append, flatMap_whole_wrapPieces]

/-! ## Sequences that end -/

theorem throughFirst_of_rest {p : Char → Bool} {cs : List Char} (h : (throughFirst p cs).2 ≠ [])
    (rest : List Char) :
    throughFirst p ((throughFirst p cs).1 ++ rest) = ((throughFirst p cs).1, rest) := by
  induction cs with
  | nil => exact absurd rfl h
  | cons c cs ih =>
    rw [throughFirst] at h ⊢
    split
    · rename_i hc
      simp [throughFirst, hc]
    · rename_i hc
      rw [if_neg hc] at h
      simp [throughFirst, hc, ih h]

theorem throughCommand_of_rest {last : Char} {cs : List Char} (h : (throughCommand last cs).2 ≠ [])
    (rest : List Char) :
    throughCommand last ((throughCommand last cs).1 ++ rest) =
      ((throughCommand last cs).1, rest) := by
  induction cs generalizing last with
  | nil => exact absurd rfl h
  | cons c cs ih =>
    rw [throughCommand] at h ⊢
    split
    · rename_i hc
      simp [throughCommand, hc]
    · rename_i hc
      rw [if_neg hc] at h
      simp [throughCommand, hc, ih h]

/-- A sequence behind which something stands has come to its end, so it is the same whatever stands
there. -/
theorem sequence_of_rest {cs : List Char} (h : (sequence cs).2 ≠ []) (rest : List Char) :
    sequence ((sequence cs).1 ++ rest) = ((sequence cs).1, rest) := by
  fun_cases sequence cs with
  | case1 cs => simp [sequence, throughFirst_of_rest h rest]
  | case2 cs => simp [sequence, throughCommand_of_rest h rest]
  | case3 c cs hbracket hcommand => simp_all [sequence]
  | case4 => exact absurd rfl h

/-- A sequence that is left open is the whole text, and is the same with nothing behind it. -/
theorem sequence_append_of_imp {cs rest : List Char} (h : (sequence cs).2 = [] → rest = []) :
    sequence ((sequence cs).1 ++ rest) = ((sequence cs).1, rest) := by
  by_cases hopen : (sequence cs).2 = []
  · have hwhole := sequence_append cs
    rw [hopen, List.append_nil] at hwhole
    rw [h hopen, List.append_nil, Prod.ext_iff, hwhole]
    exact ⟨hwhole, hopen⟩
  · exact sequence_of_rest hopen rest

/-- The first units of a text are the units of the text that they make up. -/
theorem units_of_append_left {cs : List Char} {us after : List (List Char × Nat)}
    (h : units cs = us ++ after) : units (us.map Prod.fst).flatten = us := by
  induction us generalizing cs with
  | nil => rw [List.map_nil, List.flatten_nil, units]
  | cons unit us ih =>
    cases cs with
    | nil => simp [units] at h
    | cons c rest =>
      rw [units] at h
      split at h
      · rename_i hc
        obtain ⟨rfl, hrest⟩ := List.cons.inj h
        -- a sequence that is left open is the last unit of the text, whatever units are taken
        have hopen : (sequence rest).2 = [] → (us.map Prod.fst).flatten = [] := by
          intro hend
          rw [hend, units] at hrest
          obtain ⟨rfl, -⟩ := List.append_eq_nil_iff.1 hrest.symm
          rfl
        rw [List.map_cons, List.flatten_cons, List.cons_append, units, if_pos hc,
          sequence_append_of_imp hopen, ih hrest]
      · rename_i hc
        obtain ⟨rfl, hrest⟩ := List.cons.inj h
        rw [List.map_cons, List.flatten_cons, List.singleton_append, units, if_neg hc, ih hrest]

/-- The last units of a text are the units of the text that they make up. -/
theorem units_of_append_right {cs : List Char} {before us : List (List Char × Nat)}
    (h : units cs = before ++ us) : units (us.map Prod.fst).flatten = us := by
  induction before generalizing cs with
  | nil => rw [← List.nil_append us, ← h, flatten_units]
  | cons unit before ih =>
    cases cs with
    | nil => simp [units] at h
    | cons c rest =>
      rw [units] at h
      split at h
      · exact ih (List.cons.inj h).2
      · exact ih (List.cons.inj h).2

/-! ## Widths -/

/-- The columns of units. -/
def total : List (List Char × Nat) → Nat
  | [] => 0
  | unit :: us => unit.2 + total us

theorem total_append (us vs : List (List Char × Nat)) : total (us ++ vs) = total us + total vs := by
  induction us with
  | nil => exact (Nat.zero_add _).symm
  | cons unit us ih => rw [List.cons_append, total, total, ih, Nat.add_assoc]

theorem width_eq_total (cs : List Char) : width cs = total (units cs) := by
  have hfold (us : List (List Char × Nat)) (n : Nat) :
      us.foldl (fun n unit => n + unit.2) n = n + total us := by
    induction us generalizing n with
    | nil => rfl
    | cons unit us ih => rw [List.foldl_cons, ih, total, Nat.add_assoc]
  rw [width, hfold, Nat.zero_add]

/-- Whether every sequence in a text comes to its end there, whatever follows. -/
def IsComplete (cs : List Char) : Prop := ∀ rest, units (cs ++ rest) = units cs ++ units rest

theorem IsComplete.width_append {a : List Char} (ha : IsComplete a) (b : List Char) :
    width (a ++ b) = width a + width b := by
  rw [width_eq_total, ha, total_append, ← width_eq_total, ← width_eq_total]

theorem IsComplete.append {a b : List Char} (ha : IsComplete a) (hb : IsComplete b) :
    IsComplete (a ++ b) := by
  intro rest
  rw [List.append_assoc, ha, hb, ha, List.append_assoc]

theorem isComplete_of_notMem {cs : List Char} (h : escapeChar ∉ cs) : IsComplete cs := by
  intro rest
  induction cs with
  | nil => simp [units]
  | cons c cs ih =>
    rw [List.mem_cons, not_or] at h
    rw [List.cons_append, units, units, if_neg (Ne.symm h.1), if_neg (Ne.symm h.1), ih h.2,
      List.cons_append]

theorem isComplete_spaces (n : Nat) : IsComplete (List.replicate n ' ') :=
  isComplete_of_notMem fun h => absurd (List.eq_of_mem_replicate h) (by decide)

theorem width_spaces (n : Nat) : width (List.replicate n ' ') = n := by
  induction n with
  | zero => rw [List.replicate_zero, width_eq_total, units]; rfl
  | succ n ih =>
    have hspace : IsComplete [' '] := isComplete_spaces 1
    have hone : width [' '] = 1 := by
      rw [width_eq_total, units, if_neg (by decide), units]
      rfl
    rw [List.replicate_succ, ← List.singleton_append, hspace.width_append, ih, hone, Nat.add_comm]

/-- A piece whose sequences end in it is followed by its spaces. -/
theorem Piece.isComplete_whole {p : Piece} (h : IsComplete p.text) : IsComplete p.whole :=
  h.append (isComplete_spaces _)

theorem Piece.width_whole {p : Piece} (h : IsComplete p.text) :
    width p.whole = width p.text + p.spaces := by
  rw [whole, h.width_append, width_spaces]

/-! ## No piece is wider than a line -/

theorem snd_le_of_mem_units {cs : List Char} : ∀ unit ∈ units cs, unit.2 ≤ 2 := by
  fun_induction units cs with
  | case1 => exact fun _ h => absurd h List.not_mem_nil
  | case2 rest ih => exact List.forall_mem_cons.2 ⟨Nat.zero_le _, ih⟩
  | case3 c rest _ ih =>
    refine List.forall_mem_cons.2 ⟨?_, ih⟩
    show wrapColumns c ≤ 2
    unfold wrapColumns
    split <;> decide

/-- Units are gathered into groups, none of which is too wide; the first starts with what was used
before. -/
theorem exists_groups_gatherUnits {limit used : Nat} {us : List (List Char × Nat)}
    (hused : used ≤ limit) (hus : ∀ unit ∈ us, unit.2 ≤ limit) :
    ∃ first more, first ++ List.flatten more = us ∧
      gatherUnits limit used us =
        (first :: more).map (fun group => (group.map Prod.fst).flatten) ∧
      used + total first ≤ limit ∧ ∀ group ∈ more, total group ≤ limit := by
  induction us generalizing used with
  | nil => exact ⟨[], [], rfl, rfl, hused, by simp⟩
  | cons unit rest ih =>
    obtain ⟨u, w⟩ := unit
    obtain ⟨hunit, hrest⟩ := List.forall_mem_cons.1 hus
    rw [gatherUnits]
    split
    · -- what was gathered before is complete, and the unit starts the next group
      obtain ⟨first, more, rfl, hgather, hfirst, hmore⟩ := ih hunit hrest
      refine ⟨[], ((u, w) :: first) :: more, rfl, ?_, ?_, ?_⟩
      · simp [hgather, startWith]
      · simpa [total] using hused
      · exact List.forall_mem_cons.2 ⟨by simpa [total] using hfirst, hmore⟩
    · have hfits : used + w ≤ limit := by
        simp only at hunit
        omega
      obtain ⟨first, more, rfl, hgather, hfirst, hmore⟩ := ih hfits hrest
      refine ⟨(u, w) :: first, more, rfl, ?_, ?_, hmore⟩
      · simp [hgather, startWith]
      · rw [total]
        omega

/-- A part of a text is as wide as its units, wherever it starts and ends. -/
theorem width_of_units {cs : List Char} {before us after : List (List Char × Nat)}
    (h : units cs = before ++ us ++ after) : width (us.map Prod.fst).flatten = total us := by
  rw [List.append_assoc] at h
  rw [width_eq_total, units_of_append_left (units_of_append_right h)]

/-- Parts of a text are not too wide, if there is room for a single character. -/
theorem width_of_mem_breakApart {limit : Nat} (hlimit : 2 ≤ limit) {cs part : List Char}
    (h : part ∈ breakApart limit cs) : width part ≤ limit := by
  rw [breakApart] at h
  split at h
  · rename_i hfits
    rw [List.mem_singleton.1 h]
    exact hfits
  · have hunits : ∀ unit ∈ units cs, unit.2 ≤ limit :=
      fun unit hunit => Nat.le_trans (snd_le_of_mem_units unit hunit) hlimit
    obtain ⟨first, more, hflat, hgather, hfirst, hmore⟩ :=
      exists_groups_gatherUnits (Nat.zero_le limit) hunits
    rw [hgather] at h
    obtain ⟨group, hgroup, rfl⟩ := List.mem_map.1 h
    have hgroups : (first :: more).flatten = units cs := by rw [List.flatten_cons, hflat]
    obtain ⟨before, after, hsplit⟩ := List.append_of_mem hgroup
    rw [hsplit] at hgroups
    have hgroupUnits : units cs = before.flatten ++ group ++ after.flatten := by
      rw [← hgroups]
      simp
    rw [width_of_units hgroupUnits]
    rcases List.mem_cons.1 hgroup with rfl | hgroup
    · rwa [Nat.zero_add] at hfirst
    · exact hmore group hgroup

theorem text_mem_of_mem_piecesOf {spaces : Nat} {parts : List (List Char)} {p : Piece}
    (h : p ∈ piecesOf spaces parts) : p.text ∈ parts := by
  fun_induction piecesOf spaces parts with
  | case1 => exact absurd h List.not_mem_nil
  | case2 part =>
    rw [List.mem_singleton.1 h]
    exact List.mem_cons_self
  | case3 part more _ ih =>
    rcases List.mem_cons.1 h with rfl | h
    · exact List.mem_cons_self
    · exact List.mem_cons_of_mem _ (ih h)

/-- No piece is wider than a line. -/
theorem width_of_mem_wrapPieces {limit : Nat} (hlimit : 2 ≤ limit) {cs : List Char} {p : Piece}
    (h : p ∈ wrapPieces limit cs) : width p.text ≤ limit := by
  obtain ⟨word, -, hp⟩ := List.mem_flatMap.1 h
  obtain ⟨part, -, hpart⟩ := List.mem_flatMap.1 (text_mem_of_mem_piecesOf hp)
  exact width_of_mem_breakApart hlimit hpart

/-! ## No line has more pieces than fit -/

/-- The columns that the pieces of a line take, each on its own, with the spaces between them. -/
def lineColumns : List Piece → Nat
  | [] => 0
  | [p] => width p.text
  | p :: more => width p.text + p.spaces + lineColumns more

/-- The columns that pieces take with the spaces after them. -/
def fullColumns : List Piece → Nat
  | [] => 0
  | p :: more => width p.text + p.spaces + fullColumns more

theorem fullColumns_concat (line : List Piece) (p : Piece) :
    fullColumns (line ++ [p]) = fullColumns line + width p.text + p.spaces := by
  induction line with
  | nil => simp [fullColumns]
  | cons q line ih => simp only [List.cons_append, fullColumns, ih, Nat.add_assoc]

theorem lineColumns_cons_cons (p next : Piece) (more : List Piece) :
    lineColumns (p :: next :: more) = width p.text + p.spaces + lineColumns (next :: more) := by
  simp [lineColumns]

theorem lineColumns_concat (line : List Piece) (p : Piece) :
    lineColumns (line ++ [p]) = fullColumns line + width p.text := by
  induction line with
  | nil => simp [lineColumns, fullColumns]
  | cons q line ih =>
    obtain ⟨next, more, hnext⟩ : ∃ next more, line ++ [p] = next :: more :=
      List.exists_cons_of_ne_nil (by simp)
    rw [List.cons_append, hnext, lineColumns_cons_cons, ← hnext, ih]
    simp [fullColumns, Nat.add_assoc]

/-- A piece is put into a line only if it fits, or if it is the first one. -/
theorem lineColumns_of_mem_fillLines {limit : Nat} {line : List Piece} {ps : List Piece}
    (hline : lineColumns line ≤ limit) (hps : ∀ p ∈ ps, width p.text ≤ limit) :
    ∀ l ∈ fillLines limit line (fullColumns line) ps, lineColumns l ≤ limit := by
  induction ps generalizing line with
  | nil => simpa [fillLines] using hline
  | cons p rest ih =>
    obtain ⟨hp, hrest⟩ := List.forall_mem_cons.1 hps
    simp only [fillLines]
    split
    · have hone : fullColumns [p] = width p.text + p.spaces := by simp [fullColumns]
      rw [← hone]
      exact List.forall_mem_cons.2 ⟨hline, ih hp hrest⟩
    · rename_i hfits
      rw [← fullColumns_concat]
      apply ih _ hrest
      rw [lineColumns_concat]
      by_cases hempty : line = []
      · rw [hempty]
        simpa [fullColumns] using hp
      · exact Nat.not_lt.1 fun hwide => hfits ⟨hwide, hempty⟩

/-! ## How wide a line is -/

/-- A line is as wide as its pieces, if no sequence goes on beyond a piece with another after it. -/
theorem width_lineText {line : List Piece} (h : ∀ p ∈ line.dropLast, IsComplete p.text) :
    width (lineText line) = lineColumns line := by
  induction line with
  | nil => rw [lineText, width_eq_total, units]; rfl
  | cons p more ih =>
    cases more with
    | nil => rfl
    | cons next more =>
      obtain ⟨hp, hmore⟩ := List.forall_mem_cons.1 h
      rw [lineText_cons_cons, (Piece.isComplete_whole hp).width_append, Piece.width_whole hp,
        ih hmore, lineColumns_cons_cons]

end CompileFlags.Text
