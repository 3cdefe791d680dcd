import CompileFlags.Session
import Mathlib.Data.List.DropRight

/-!
# Lines and the requests among them

* `pieces_append_cons` — cutting at a separator cuts what stands before it and what stands after it.
* `pieces_flatMap_ended` — lines that each end in a separator are cut at exactly these ends, if they
  hold no other; `flatMap_pieces_eq_iff` — and only then.
* `pieces_encodeChars` — the bytes of a text are cut where its characters are.
* `requestLines` are the lines that ask for something, and `numberedRequests` tell where they stand.
* `completeLines` are the bytes up to the last newline; `lines_breakingAfter` — an input that breaks
  has the lines of an input that ends there.
-/

namespace CompileFlags

/-! ## Cutting -/

section

variable {α : Type} {isSep : α → Bool}

theorem pieces_append_cons {s : α} (hs : isSep s = true) (a b : List α) :
    pieces isSep (a ++ s :: b) = pieces isSep a ++ pieces isSep b := by
  induction a with
  | nil =>
    show pieces isSep (s :: b) = [] :: pieces isSep b
    rw [pieces, if_pos hs]
  | cons x a ih =>
    rw [List.cons_append, pieces, pieces, ih]
    split
    · rfl
    · obtain ⟨piece, more, hm⟩ := List.exists_cons_of_ne_nil (pieces_ne_nil isSep a)
      rw [hm]
      rfl

theorem pieces_of_forall_not {l : List α} (h : ∀ a ∈ l, isSep a = false) :
    pieces isSep l = [l] := by
  induction l with
  | nil => rfl
  | cons x l ih =>
    have hx := h x List.mem_cons_self
    rw [pieces, ih fun a ha => h a (List.mem_cons_of_mem _ ha), hx]
    rfl

/-- What holds no separator becomes the start of the first piece. -/
theorem pieces_append_of_forall_not {l : List α} (h : ∀ a ∈ l, isSep a = false)
    {rest piece : List α} {more : List (List α)} (hr : pieces isSep rest = piece :: more) :
    pieces isSep (l ++ rest) = (l ++ piece) :: more := by
  induction l with
  | nil => exact hr
  | cons x l ih =>
    have hx := h x List.mem_cons_self
    rw [List.cons_append, pieces, ih fun a ha => h a (List.mem_cons_of_mem _ ha), hx]
    rfl

/-- Lines that each end in a separator are cut there, and wherever else they hold one. -/
theorem pieces_flatMap {s : α} (hs : isSep s = true) (lines : List (List α)) :
    pieces isSep (lines.flatMap fun line => line ++ [s]) =
      lines.flatMap (pieces isSep) ++ [[]] := by
  induction lines with
  | nil => rfl
  | cons line lines ih =>
    rw [List.flatMap_cons, List.append_assoc, List.singleton_append, pieces_append_cons hs, ih,
      List.flatMap_cons, List.append_assoc]

/-- Cutting leaves lines as they are exactly if none of them holds a separator. -/
theorem flatMap_pieces_eq_iff {lines : List (List α)} :
    lines.flatMap (pieces isSep) = lines ↔ ∀ line ∈ lines, ∀ a ∈ line, isSep a = false := by
  constructor
  · intro h line hline
    rw [← h] at hline
    obtain ⟨whole, -, hpiece⟩ := List.mem_flatMap.1 hline
    exact not_isSep_of_mem_pieces hpiece
  · intro h
    induction lines with
    | nil => rfl
    | cons line lines ih =>
      have hrest := ih fun l hl => h l (List.mem_cons_of_mem _ hl)
      rw [List.flatMap_cons, pieces_of_forall_not (h line List.mem_cons_self), hrest,
        List.singleton_append]

/-- Lines that each end in a separator, and hold no other, are cut at exactly these ends. -/
theorem pieces_flatMap_ended {s : α} (hs : isSep s = true) {lines : List (List α)}
    (h : ∀ line ∈ lines, ∀ a ∈ line, isSep a = false) :
    pieces isSep (lines.flatMap fun line => line ++ [s]) = lines ++ [[]] := by
  rw [pieces_flatMap hs, flatMap_pieces_eq_iff.2 h]

/-- The end of the last line starts no other. -/
theorem terminatedPieces_flatMap {s : α} (hs : isSep s = true) (lines : List (List α)) :
    terminatedPieces isSep (lines.flatMap fun line => line ++ [s]) =
      lines.flatMap (pieces isSep) := by
  rw [terminatedPieces, pieces_flatMap hs]
  simp

end

section

variable {α : Type} [BEq α] [LawfulBEq α]

theorem forall_beq_eq_false_iff {sep : α} {l : List α} :
    (∀ a ∈ l, (a == sep) = false) ↔ sep ∉ l := by
  constructor
  · intro h hmem
    have hsep := h sep hmem
    rw [beq_self_eq_true] at hsep
    cases hsep
  · intro h a ha
    rw [beq_eq_false_iff_ne]
    rintro rfl
    exact h ha

/-- What does not hold the separator is one piece. -/
theorem pieces_of_notMem {sep : α} {l : List α} (h : sep ∉ l) : pieces (· == sep) l = [l] :=
  pieces_of_forall_not (forall_beq_eq_false_iff.2 h)

theorem sep_notMem_of_mem_pieces {sep : α} {l piece : List α}
    (h : piece ∈ pieces (· == sep) l) : sep ∉ piece :=
  forall_beq_eq_false_iff.1 (not_isSep_of_mem_pieces h)

/-- The pieces of a list, each with a separator behind it, are the list and one more separator. -/
theorem flatMap_pieces (sep : α) (l : List α) :
    ((pieces (· == sep) l).flatMap fun piece => piece ++ [sep]) = l ++ [sep] := by
  induction l with
  | nil => rfl
  | cons a rest ih =>
    rw [pieces]
    split
    · rename_i h
      rw [List.flatMap_cons, ih, beq_iff_eq.1 h]
      rfl
    · obtain ⟨piece, more, hm⟩ := List.exists_cons_of_ne_nil (pieces_ne_nil (· == sep) rest)
      rw [hm, List.flatMap_cons] at ih
      rw [hm, List.cons_append, ← ih]
      rfl

end

/-- The bytes of a text are cut where its characters are, if each separator among the characters is
one byte that separates, and no byte of any other character does. -/
theorem pieces_encodeChars {isSep : Char → Bool} {isSepByte : UInt8 → Bool}
    (hsep : ∀ c, isSep c = true → ∃ b, isSepByte b = true ∧ Utf8.encodeChar c = [b])
    (hplain : ∀ c, isSep c = false → ∀ b ∈ Utf8.encodeChar c, isSepByte b = false)
    (cs : List Char) :
    pieces isSepByte (Utf8.encodeChars cs) = (pieces isSep cs).map Utf8.encodeChars := by
  induction cs with
  | nil => rfl
  | cons c cs ih =>
    obtain ⟨piece, more, hm⟩ := List.exists_cons_of_ne_nil (pieces_ne_nil isSep cs)
    rw [hm, List.map_cons] at ih
    rw [Utf8.encodeChars_cons, pieces, hm]
    cases hc : isSep c with
    | true =>
      obtain ⟨b, hb, henc⟩ := hsep c hc
      rw [henc, List.singleton_append, pieces, if_pos hb, ih]
      rfl
    | false =>
      rw [pieces_append_of_forall_not (hplain c hc) ih]
      rfl

/-! ## Requests -/

/-- The pieces of an input between its newlines that are not blank, without the return at their
end. -/
def requestLines (data : Bytes) : List Bytes :=
  ((pieces (· == newline) data).map withoutReturn).filter fun line => !line.all Text.isBlankByte

/-- The lines that are not blank, each with its number, after so many other lines. -/
def numberedRequests (before : Nat) (lines : List Bytes) : List (Nat × Bytes) :=
  ((lines.zipIdx (before + 1)).map fun l => (l.2, withoutReturn l.1)).filter
    fun request => !request.2.all Text.isBlankByte

theorem numberedRequests_cons (before : Nat) (line : Bytes) (rest : List Bytes) :
    numberedRequests before (line :: rest) =
      if (withoutReturn line).all Text.isBlankByte then numberedRequests (before + 1) rest
      else (before + 1, withoutReturn line) :: numberedRequests (before + 1) rest := by
  rw [numberedRequests, List.zipIdx_cons, List.map_cons, List.filter_cons]
  cases (withoutReturn line).all Text.isBlankByte <;> rfl

theorem numberedRequests_append (before : Nat) (a b : List Bytes) :
    numberedRequests before (a ++ b) =
      numberedRequests before a ++ numberedRequests (before + a.length) b := by
  induction a generalizing before with
  | nil => rfl
  | cons line a ih =>
    rw [List.cons_append, numberedRequests_cons, numberedRequests_cons, ih, List.length_cons,
      Nat.add_assoc, Nat.add_comm 1]
    split <;> rfl

theorem map_snd_numberedRequests (before : Nat) (lines : List Bytes) :
    (numberedRequests before lines).map Prod.snd =
      (lines.map withoutReturn).filter fun line => !line.all Text.isBlankByte := by
  induction lines generalizing before with
  | nil => rfl
  | cons line rest ih =>
    rw [numberedRequests_cons, List.map_cons, List.filter_cons]
    cases (withoutReturn line).all Text.isBlankByte with
    | true => exact ih (before + 1)
    | false => exact congrArg (withoutReturn line :: ·) (ih (before + 1))

/-- A newline at the end of an input starts no request: the empty piece behind it is blank. -/
theorem numberedRequests_lines (data : Bytes) :
    numberedRequests 0 (Source.lines { data }) =
      numberedRequests 0 (pieces (· == newline) data) := by
  show numberedRequests 0 (terminatedPieces (· == newline) data) = _
  rw [terminatedPieces]
  split
  · rename_i h
    rcases List.eq_nil_or_concat (pieces (· == newline) data) with hp | ⟨ps, last, hp⟩
    · exact absurd hp (pieces_ne_nil _ _)
    · rw [hp, List.concat_eq_append] at h ⊢
      rw [List.getLast?_append_cons, List.getLast?_singleton, Option.getD_some,
        List.isEmpty_iff] at h
      subst h
      rw [List.dropLast_concat, numberedRequests_append]
      exact (List.append_nil _).symm
  · rfl

theorem requestLines_eq_of_lines (data : Bytes) :
    (numberedRequests 0 (Source.lines { data })).map Prod.snd = requestLines data := by
  rw [numberedRequests_lines, map_snd_numberedRequests]
  rfl

theorem requestLines_append_cons (before after : Bytes) :
    requestLines (before ++ newline :: after) = requestLines before ++ requestLines after := by
  rw [requestLines, pieces_append_cons (by decide), List.map_append, List.filter_append]
  rfl

/-! ## Inputs that break -/

/-- The bytes up to the last newline and with it. -/
def completeLines (data : Bytes) : Bytes := data.rdropWhile (· != newline)

/-- Bytes are complete lines and a piece without a newline. -/
theorem exists_eq_completeLines_append (data : Bytes) :
    ∃ part, newline ∉ part ∧ data = completeLines data ++ part ∧
      (completeLines data = [] ∨ ∃ whole, completeLines data = whole ++ [newline]) := by
  refine ⟨data.rtakeWhile (· != newline), ?_, ?_, ?_⟩
  · intro h
    have := List.mem_rtakeWhile_imp h
    simp at this
  · exact (List.rdropWhile_append_rtakeWhile ..).symm
  · rw [completeLines]
    rcases List.eq_nil_or_concat (data.rdropWhile (· != newline)) with hc | ⟨whole, last, hc⟩
    · exact .inl hc
    · have hne : data.rdropWhile (· != newline) ≠ [] := by
        rw [hc, List.concat_eq_append]
        simp
      have hlast := List.rdropWhile_last_not (· != newline) data hne
      simp only [hc, List.concat_eq_append, List.getLast_append_singleton, bne_iff_ne, ne_eq,
        not_not] at hlast
      exact .inr ⟨whole, by rw [hc, List.concat_eq_append, hlast]⟩

/-- An input that breaks has the lines of one that ends after its last newline before the break. -/
theorem lines_breakingAfter (data : Bytes) (n : Nat) (e : IoError) :
    (Source.breakingAfter data n e).lines =
      Source.lines { data := completeLines (data.take n) } := by
  show (pieces (· == newline) (data.take n)).dropLast =
    terminatedPieces (· == newline) (completeLines (data.take n))
  generalize data.take n = bs
  obtain ⟨part, hpart, hbs, hc⟩ := exists_eq_completeLines_append bs
  have hp : pieces (· == newline) part = [part] := pieces_of_notMem hpart
  rcases hc with hc | ⟨whole, hc⟩
  · rw [hc, List.nil_append] at hbs
    rw [hc, hbs, hp]
    rfl
  · have h1 : pieces (· == newline) bs = pieces (· == newline) whole ++ [part] := by
      rw [hbs, hc, List.append_assoc, List.singleton_append, pieces_append_cons (by decide), hp]
    have h2 : pieces (· == newline) (completeLines bs) =
        pieces (· == newline) whole ++ [[]] := by
      rw [hc, pieces_append_cons (by decide)]
      rfl
    rw [h1, List.dropLast_concat, terminatedPieces, h2]
    simp

end CompileFlags
