import CompileFlags.Proofs.ClosedOutput

/-!
# Lines that are written in turn

Lines are written one after another to an output with room for so many bytes, and each is tried,
whatever became of those before it. A line is written exactly if it fits with all those before it,
so once one did not fit, none does: even an empty line has its newline to write.

* `Sink.putPieces_eq` — it does not matter in which pieces a line is handed over.
* `Sink.put_bytes` — one step: what is taken, whether it failed, and the room behind it.
* `Sink.taken_writeLines`, `Sink.getElem?_results_writeLines` — all lines: what is taken of them,
  and the result for each.
* `Sink.writing_fails_for_good` — both, and that no line is written behind one that was not.
-/

namespace CompileFlags

/-- The fault of a line that cannot be written. -/
def unwrittenLine (e : IoError) : Fault := ⟨[.writingOutput], .io e⟩

theorem message_unwrittenLine (e : IoError) :
    (unwrittenLine e).message = "failed to write output: " ++ e.message := by
  have h : "failed to write output" ++ ": " = "failed to write output: " := by decide
  exact (Fault.message_of_context _ _).trans (congrArg (· ++ e.message) h)

namespace Sink

/-! ## Pieces of a line -/

/-- Writes pieces one after another, until one of them fails. -/
def putPieces : List Bytes → Sink → Put
  | [], sink => ⟨[], none, sink⟩
  | piece :: rest, sink =>
    let p := sink.put piece
    match p.failure with
    | some _ => p
    | none =>
      let q := putPieces rest p.next
      ⟨p.taken ++ q.taken, q.failure, q.next⟩

/-- Room for so many bytes: the first bytes are taken, and what they leave of the room is left. -/
theorem put_bytes (bs : Bytes) (n : Nat) (e : IoError) :
    (bytes n e).put bs =
      ⟨bs.take n, if bs.length ≤ n then none else some e, bytes (n - bs.length) e⟩ := by
  by_cases h : bs.length ≤ n
  · rw [put_bytes_of_le h, if_pos h, List.take_of_length_le h]
  · rw [put_bytes_of_lt (by omega), if_neg h, Nat.sub_eq_zero_of_le (by omega)]

/-- Bytes that are put after others, if these did not fail, are put as if they were one. -/
theorem put_append (a b : Bytes) (sink : Sink) :
    sink.put (a ++ b) =
      match (sink.put a).failure with
      | some _ => sink.put a
      | none =>
        ⟨(sink.put a).taken ++ ((sink.put a).next.put b).taken,
          ((sink.put a).next.put b).failure, ((sink.put a).next.put b).next⟩ := by
  cases sink with
  | unlimited => rfl
  | flushes left e => rfl
  | bytes n e =>
    rw [put_bytes, put_bytes]
    by_cases ha : a.length ≤ n
    · have hroom : a.length + b.length ≤ n ↔ b.length ≤ n - a.length := by omega
      simp only [if_pos ha, put_bytes, List.take_append, List.length_append, hroom, Nat.sub_sub]
    · have hroom : ¬(a ++ b).length ≤ n := by
        rw [List.length_append]
        omega
      have hfull : n - (a ++ b).length = n - a.length := by
        rw [List.length_append]
        omega
      simp only [if_neg ha, if_neg hroom, hfull,
        List.take_append_of_le_length (Nat.le_of_not_le ha)]

/-- Pieces are put as what they are together, wherever it is cut and however many of them are
empty. -/
theorem putPieces_eq (pieces : List Bytes) (sink : Sink) :
    putPieces pieces sink = sink.put pieces.flatten := by
  induction pieces generalizing sink with
  | nil => cases sink <;> rfl
  | cons piece rest ih =>
    rw [List.flatten_cons, put_append, putPieces]
    simp only [ih]

/-! ## Lines -/

/-- What came of lines: the bytes that were taken, and for each line whether it was written. -/
structure Writing where
  taken : Bytes
  results : List (Except Fault Bool)

/-- Writes lines in turn, each of them whatever became of those before it. -/
def writeLines : List String → Sink → Writing
  | [], _ => ⟨[], []⟩
  | line :: rest, sink =>
    let p := sink.put (lineOf line)
    let w := writeLines rest p.next
    ⟨p.taken ++ w.taken, lineResult p :: w.results⟩

/-- The bytes of lines up to the one with an index, and with it. -/
def bytesThrough (lines : List String) (i : Nat) : Bytes := (lines.take (i + 1)).flatMap lineOf

/-- The result for a line that cannot be written: it is no fault if nobody reads any more. -/
def failedLine (e : IoError) : Except Fault Bool :=
  if e.isClosed then .ok false else .error (unwrittenLine e)

theorem failedLine_ne (e : IoError) : failedLine e ≠ .ok true := by
  unfold failedLine
  split
  · simp
  · simp

theorem lineResult_bytes (line : String) (n : Nat) (e : IoError) :
    lineResult ((bytes n e).put (lineOf line)) =
      if (lineOf line).length ≤ n then .ok true else failedLine e := by
  rw [put_bytes, lineResult]
  by_cases h : (lineOf line).length ≤ n
  · simp only [if_pos h]
  · simp only [if_neg h, verdict, failedLine]
    split <;> rfl

theorem writeLines_bytes_cons (line : String) (rest : List String) (n : Nat) (e : IoError) :
    writeLines (line :: rest) (bytes n e) =
      ⟨(lineOf line).take n ++ (writeLines rest (bytes (n - (lineOf line).length) e)).taken,
        (if (lineOf line).length ≤ n then .ok true else failedLine e) ::
          (writeLines rest (bytes (n - (lineOf line).length) e)).results⟩ := by
  rw [← lineResult_bytes, writeLines, put_bytes]

/-- The bytes that are taken are the first ones of all lines. -/
theorem taken_writeLines (lines : List String) (n : Nat) (e : IoError) :
    (writeLines lines (bytes n e)).taken = (lines.flatMap lineOf).take n := by
  induction lines generalizing n with
  | nil => exact List.take_nil.symm
  | cons line rest ih =>
    rw [writeLines_bytes_cons, List.flatMap_cons, List.take_append]
    exact congrArg ((lineOf line).take n ++ ·) (ih _)

/-- Each line has a result. -/
theorem length_results_writeLines (lines : List String) (sink : Sink) :
    (writeLines lines sink).results.length = lines.length := by
  induction lines generalizing sink with
  | nil => rfl
  | cons line rest ih => rw [writeLines, List.length_cons, List.length_cons, ih]

theorem bytesThrough_cons_succ (line : String) (rest : List String) (i : Nat) :
    bytesThrough (line :: rest) (i + 1) = lineOf line ++ bytesThrough rest i := rfl

/-- Every line has something to write. -/
theorem bytesThrough_ne_nil {lines : List String} (h : lines ≠ []) (i : Nat) :
    bytesThrough lines i ≠ [] := by
  obtain ⟨line, rest, rfl⟩ := List.exists_cons_of_ne_nil h
  rw [bytesThrough, List.take_succ_cons, List.flatMap_cons, lineOf, List.append_assoc]
  simp

theorem bytesThrough_length_mono (lines : List String) {i j : Nat} (h : i ≤ j) :
    (bytesThrough lines i).length ≤ (bytesThrough lines j).length := by
  have htake : lines.take (i + 1) <+: lines.take (j + 1) := List.take_prefix_take_left (by omega)
  obtain ⟨more, hmore⟩ := htake
  rw [bytesThrough, bytesThrough, ← hmore, List.flatMap_append, List.length_append]
  omega

/-- A line is written exactly if there is room for it and all lines before it. -/
theorem getElem?_results_writeLines (lines : List String) (n : Nat) (e : IoError) {i : Nat}
    (h : i < lines.length) :
    (writeLines lines (bytes n e)).results[i]? =
      some (if (bytesThrough lines i).length ≤ n then .ok true else failedLine e) := by
  induction lines generalizing n i with
  | nil => exact absurd h (Nat.not_lt_zero i)
  | cons line rest ih =>
    rw [writeLines_bytes_cons]
    cases i with
    | zero =>
      have hfirst : bytesThrough (line :: rest) 0 = lineOf line := List.append_nil _
      rw [hfirst]
      rfl
    | succ i =>
      have hi : i < rest.length := Nat.lt_of_succ_lt_succ h
      -- without room for the first line, the newline of a later one does not fit, either
      have hpos : 0 < (bytesThrough rest i).length :=
        List.length_pos_of_ne_nil (bytesThrough_ne_nil (List.ne_nil_of_length_pos (by omega)) i)
      have hroom : (bytesThrough (line :: rest) (i + 1)).length ≤ n ↔
          (bytesThrough rest i).length ≤ n - (lineOf line).length := by
        rw [bytesThrough_cons_succ, List.length_append]
        omega
      rw [List.getElem?_cons_succ, ih _ hi]
      simp only [hroom]

/-- **Writing fails once and for good.** On an output with room for so many bytes, the bytes that
are taken of lines written in turn are the first ones of all of them. A line is written exactly if
there is room for it and all before it, with their newlines; otherwise its result is a fault, or
that nobody reads any more. So no line is written behind one that was not. It does not matter in
which pieces a line is handed over, and nothing is lost by giving up at the first line that is not
written. -/
theorem writing_fails_for_good (lines : List String) (n : Nat) (e : IoError) :
    let w := writeLines lines (bytes n e)
    w.taken = (lines.flatMap fun line => Utf8.encode line ++ [newline]).take n ∧
    w.results.length = lines.length ∧
    (∀ i < lines.length,
      (w.results[i]? = some (.ok true) ↔ (bytesThrough lines i).length ≤ n) ∧
      (n < (bytesThrough lines i).length → w.results[i]? =
        some (if e.isClosed then .ok false else .error (unwrittenLine e)))) ∧
    (∀ i j, i < j → j < lines.length → w.results[i]? ≠ some (.ok true) →
      w.results[j]? = some (if e.isClosed then .ok false else .error (unwrittenLine e))) ∧
    (unwrittenLine e).message = "failed to write output: " ++ e.message ∧
    (∀ line pieces sink, pieces.flatten = lineOf line →
      putPieces pieces sink = sink.put (lineOf line)) ∧
    (Run.ofLines lines (bytes n e)).output = w.taken := by
  intro w
  have hresult (i : Nat) (hi : i < lines.length) := getElem?_results_writeLines lines n e hi
  have hwritten (i : Nat) (hi : i < lines.length) :
      w.results[i]? = some (.ok true) ↔ (bytesThrough lines i).length ≤ n := by
    rw [hresult i hi]
    split
    · simp [*]
    · simp [*, failedLine_ne]
  have hfailed (i : Nat) (hi : i < lines.length) (h : n < (bytesThrough lines i).length) :
      w.results[i]? = some (failedLine e) := by
    rw [hresult i hi, if_neg (by omega)]
  refine ⟨taken_writeLines lines n e, length_results_writeLines lines _,
    fun i hi => ⟨hwritten i hi, hfailed i hi⟩, ?_, message_unwrittenLine e, ?_, ?_⟩
  · intro i j hij hj hi
    rw [ne_eq, hwritten i (by omega), Nat.not_le] at hi
    exact hfailed j hj (Nat.lt_of_lt_of_le hi (bytesThrough_length_mono lines (Nat.le_of_lt hij)))
  · intro line pieces sink h
    rw [putPieces_eq, h]
  · rw [Run.ofLines_bytes, taken_writeLines]
    rfl

end Sink

end CompileFlags
