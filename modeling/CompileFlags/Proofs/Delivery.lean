import CompileFlags.Stream

/-!
# What an output takes of a sequence of lines

Lines are written and flushed one after another, until one of them fails.

* `deliver_unlimited` — an output that does not fail takes them all.
* `deliver_bytes_of_lt` — an output with room for so many bytes takes just these bytes, and the line
  in which the room ends is the last one offered.
* `deliver_flushes_of_lt` — an output whose flushes fail takes one line more than it can flush.
-/

namespace CompileFlags

/-- What comes of lines that are offered to an output: what was taken, how many of them were
offered, and the failure of the last one, if it failed. -/
structure Delivery where
  taken : Bytes
  offered : Nat
  failure : Option IoError
  deriving DecidableEq, Repr

namespace Sink

/-- Writes and flushes lines until one fails. -/
def deliver : List Bytes → Sink → Delivery
  | [], _ => ⟨[], 0, none⟩
  | line :: rest, sink =>
    let p := sink.putFlushed line
    match p.failure with
    | some e => ⟨p.taken, 1, some e⟩
    | none =>
      let d := deliver rest p.next
      ⟨p.taken ++ d.taken, d.offered + 1, d.failure⟩

theorem deliver_cons_of_failure {line : Bytes} {rest : List Bytes} {sink : Sink} {e : IoError}
    (h : (sink.putFlushed line).failure = some e) :
    deliver (line :: rest) sink = ⟨(sink.putFlushed line).taken, 1, some e⟩ := by
  simp only [deliver, h]

theorem deliver_cons_of_put {line : Bytes} {rest : List Bytes} {sink : Sink}
    (h : (sink.putFlushed line).failure = none) :
    deliver (line :: rest) sink =
      ⟨(sink.putFlushed line).taken ++ (deliver rest (sink.putFlushed line).next).taken,
        (deliver rest (sink.putFlushed line).next).offered + 1,
        (deliver rest (sink.putFlushed line).next).failure⟩ := by
  simp only [deliver, h]

/-- An output that does not fail takes everything. -/
theorem deliver_unlimited (lines : List Bytes) :
    deliver lines unlimited = ⟨lines.flatten, lines.length, none⟩ := by
  induction lines with
  | nil => rfl
  | cons line rest ih =>
    rw [deliver_cons_of_put rfl]
    show (⟨line ++ (deliver rest unlimited).taken, (deliver rest unlimited).offered + 1,
      (deliver rest unlimited).failure⟩ : Delivery) = _
    rw [ih]
    rfl

/-! ## Room for so many bytes -/

theorem putFlushed_bytes_of_le {line : Bytes} {n : Nat} {e : IoError} (h : line.length ≤ n) :
    (bytes n e).putFlushed line = ⟨line, none, bytes (n - line.length) e⟩ := if_pos h

theorem putFlushed_bytes_of_lt {line : Bytes} {n : Nat} {e : IoError} (h : n < line.length) :
    (bytes n e).putFlushed line = ⟨line.take n, some e, bytes 0 e⟩ := if_neg (by omega)

/-- A line for which there is room leaves the rest of the room to the lines after it. -/
theorem deliver_bytes_cons_of_le {line : Bytes} {rest : List Bytes} {n : Nat} {e : IoError}
    (h : line.length ≤ n) :
    deliver (line :: rest) (bytes n e) =
      ⟨line ++ (deliver rest (bytes (n - line.length) e)).taken,
        (deliver rest (bytes (n - line.length) e)).offered + 1,
        (deliver rest (bytes (n - line.length) e)).failure⟩ := by
  have hp := putFlushed_bytes_of_le (e := e) h
  rw [deliver_cons_of_put (by rw [hp]), hp]

theorem deliver_bytes_of_le {lines : List Bytes} {n : Nat} {e : IoError}
    (h : lines.flatten.length ≤ n) :
    deliver lines (bytes n e) = ⟨lines.flatten, lines.length, none⟩ := by
  induction lines generalizing n with
  | nil => rfl
  | cons line rest ih =>
    rw [List.flatten_cons, List.length_append] at h
    rw [deliver_bytes_cons_of_le (by omega), ih (by omega)]
    rfl

/-- The line in which the room ends is the last one offered, and of it as much is taken as there is
room for. -/
theorem deliver_bytes_of_lt {lines : List Bytes} {n : Nat} (e : IoError)
    (h : n < lines.flatten.length) :
    ∃ m < lines.length, (lines.take m).flatten.length ≤ n ∧
      n < (lines.take (m + 1)).flatten.length ∧
      deliver lines (bytes n e) = ⟨lines.flatten.take n, m + 1, some e⟩ := by
  induction lines generalizing n with
  | nil => simp at h
  | cons line rest ih =>
    by_cases hl : line.length ≤ n
    · rw [List.flatten_cons, List.length_append] at h
      obtain ⟨m, hm, hlo, hhi, hd⟩ := ih (n := n - line.length) (by omega)
      refine ⟨m + 1, by simpa using hm, ?_, ?_, ?_⟩
      · rw [List.take_succ_cons, List.flatten_cons, List.length_append]
        omega
      · rw [List.take_succ_cons, List.flatten_cons, List.length_append]
        omega
      · rw [deliver_bytes_cons_of_le hl, hd, List.flatten_cons, List.take_append,
          List.take_of_length_le hl]
    · have hp := putFlushed_bytes_of_lt (e := e) (by omega : n < line.length)
      refine ⟨0, by simp, by simp, by simpa using hl, ?_⟩
      rw [deliver_cons_of_failure (by rw [hp]), hp, List.flatten_cons,
        List.take_append_of_le_length (by omega)]

/-- The bytes that are taken are the first ones, whether the room ends or not. -/
theorem taken_deliver_bytes (lines : List Bytes) (n : Nat) (e : IoError) :
    (deliver lines (bytes n e)).taken = lines.flatten.take n := by
  by_cases h : lines.flatten.length ≤ n
  · rw [deliver_bytes_of_le h, List.take_of_length_le h]
  · obtain ⟨m, -, -, -, hd⟩ := deliver_bytes_of_lt e (by omega : n < lines.flatten.length)
    rw [hd]

theorem failure_deliver_bytes (lines : List Bytes) (n : Nat) (e : IoError) :
    (deliver lines (bytes n e)).failure =
      if lines.flatten.length ≤ n then none else some e := by
  by_cases h : lines.flatten.length ≤ n
  · rw [deliver_bytes_of_le h, if_pos h]
  · obtain ⟨m, -, -, -, hd⟩ := deliver_bytes_of_lt e (by omega : n < lines.flatten.length)
    rw [hd, if_neg h]

/-! ## So many flushes -/

theorem deliver_flushes_succ_cons (line : Bytes) (rest : List Bytes) (k : Nat) (e : IoError) :
    deliver (line :: rest) (flushes (k + 1) e) =
      ⟨line ++ (deliver rest (flushes k e)).taken, (deliver rest (flushes k e)).offered + 1,
        (deliver rest (flushes k e)).failure⟩ := deliver_cons_of_put rfl

theorem deliver_flushes_of_le {lines : List Bytes} {k : Nat} {e : IoError}
    (h : lines.length ≤ k) :
    deliver lines (flushes k e) = ⟨lines.flatten, lines.length, none⟩ := by
  induction lines generalizing k with
  | nil => rfl
  | cons line rest ih =>
    rw [List.length_cons] at h
    obtain ⟨k, rfl⟩ : ∃ j, k = j + 1 := ⟨k - 1, by omega⟩
    rw [deliver_flushes_succ_cons, ih (by omega)]
    rfl

/-- The line whose flush fails has been written, and is the last one offered. -/
theorem deliver_flushes_of_lt {lines : List Bytes} {k : Nat} (e : IoError)
    (h : k < lines.length) :
    deliver lines (flushes k e) = ⟨(lines.take (k + 1)).flatten, k + 1, some e⟩ := by
  induction lines generalizing k with
  | nil => simp at h
  | cons line rest ih =>
    cases k with
    | zero =>
      rw [deliver_cons_of_failure rfl, List.take_succ_cons, List.take_zero, List.flatten_cons,
        List.flatten_nil, List.append_nil]
      rfl
    | succ k =>
      rw [List.length_cons] at h
      rw [deliver_flushes_succ_cons, ih (by omega)]
      rfl

theorem taken_deliver_flushes (lines : List Bytes) (k : Nat) (e : IoError) :
    (deliver lines (flushes k e)).taken = (lines.take (k + 1)).flatten := by
  by_cases h : lines.length ≤ k
  · rw [deliver_flushes_of_le h, List.take_of_length_le (by omega)]
  · rw [deliver_flushes_of_lt e (by omega)]

theorem offered_deliver_flushes (lines : List Bytes) (k : Nat) (e : IoError) :
    (deliver lines (flushes k e)).offered = min (k + 1) lines.length := by
  by_cases h : lines.length ≤ k
  · rw [deliver_flushes_of_le h, Nat.min_eq_right (by omega)]
  · rw [deliver_flushes_of_lt e (by omega), Nat.min_eq_left (by omega)]

theorem failure_deliver_flushes (lines : List Bytes) (k : Nat) (e : IoError) :
    (deliver lines (flushes k e)).failure = if lines.length ≤ k then none else some e := by
  by_cases h : lines.length ≤ k
  · rw [deliver_flushes_of_le h, if_pos h]
  · rw [deliver_flushes_of_lt e (by omega), if_neg h]

end Sink

end CompileFlags
