/-!
# Pieces

A list cut at separators. A list without separators is one piece, and each separator starts a new
one, so there is always at least one piece and pieces may be empty.

* `flatten_pieces` — joined again with the separator between them, the pieces give the list.
* `not_isSep_of_mem_pieces` — no piece holds a separator.
-/

namespace CompileFlags

variable {α : Type}

/-- The pieces of a list between the elements that are separators. -/
def pieces (isSep : α → Bool) : List α → List (List α)
  | [] => [[]]
  | a :: rest =>
    if isSep a then [] :: pieces isSep rest
    else
      match pieces isSep rest with
      | [] => [[a]]
      | piece :: more => (a :: piece) :: more

/-- Pieces with a separator between each two. -/
def joinPieces (sep : List α) : List (List α) → List α
  | [] => []
  | [piece] => piece
  | piece :: more => piece ++ sep ++ joinPieces sep more

theorem pieces_ne_nil (isSep : α → Bool) (l : List α) : pieces isSep l ≠ [] := by
  induction l with
  | nil => simp [pieces]
  | cons a rest ih =>
    simp only [pieces]
    split
    · simp
    · split <;> simp

theorem joinPieces_cons_of_ne_nil (sep piece : List α) {more : List (List α)} (h : more ≠ []) :
    joinPieces sep (piece :: more) = piece ++ sep ++ joinPieces sep more := by
  cases more with
  | nil => exact absurd rfl h
  | cons p ps => rfl

/-- Pieces with one separator between each two are as long as they are together, and one more for
each but the first. -/
theorem length_joinPieces (sep : α) (ps : List (List α)) :
    (joinPieces [sep] ps).length = ps.flatten.length + (ps.length - 1) := by
  induction ps with
  | nil => rfl
  | cons piece more ih =>
    cases more with
    | nil => simp [joinPieces]
    | cons p ps =>
      rw [joinPieces_cons_of_ne_nil _ _ (by simp)]
      simp only [List.flatten_cons, List.length_append, List.length_cons, List.length_nil] at ih ⊢
      omega

/-- Joined again, the pieces give the list. -/
theorem flatten_pieces [BEq α] [LawfulBEq α] (sep : α) (l : List α) :
    joinPieces [sep] (pieces (· == sep) l) = l := by
  induction l with
  | nil => rfl
  | cons a rest ih =>
    simp only [pieces]
    split
    · rename_i h
      rw [joinPieces_cons_of_ne_nil _ _ (pieces_ne_nil _ _), ih]
      simp [(beq_iff_eq.1 h)]
    · split
      · rename_i h; exact absurd h (pieces_ne_nil _ _)
      · rename_i piece more h
        rw [h] at ih
        cases more with
        | nil => simpa [joinPieces] using ih
        | cons p ps => simpa [joinPieces] using ih

/-- No piece holds a separator. -/
theorem not_isSep_of_mem_pieces {isSep : α → Bool} {l piece : List α} (h : piece ∈ pieces isSep l) :
    ∀ a ∈ piece, isSep a = false := by
  induction l generalizing piece with
  | nil => simp only [pieces, List.mem_singleton] at h; simp [h]
  | cons a rest ih =>
    simp only [pieces] at h
    split at h
    · rcases List.mem_cons.1 h with rfl | h
      · simp
      · exact ih h
    · rename_i ha
      split at h
      · simp only [List.mem_singleton] at h
        simp [h, ha]
      · rename_i p more hp
        rcases List.mem_cons.1 h with rfl | h
        · intro b hb
          rcases List.mem_cons.1 hb with rfl | hb
          · simpa using ha
          · exact ih (by rw [hp]; exact List.mem_cons_self) b hb
        · exact ih (by rw [hp]; exact List.mem_cons_of_mem _ h)

/-- The lines of a list in which each line ends in a terminator; what stands after the last
terminator is a line too unless it is empty. -/
def terminatedPieces (isEnd : α → Bool) (l : List α) : List (List α) :=
  let ps := pieces isEnd l
  if (ps.getLast?.getD []).isEmpty then ps.dropLast else ps

end CompileFlags
