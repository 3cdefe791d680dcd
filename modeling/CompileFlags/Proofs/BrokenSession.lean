import CompileFlags.Proofs.ServedLines
import Mathlib.Data.List.Flatten

/-!
# Sessions that break

A session may break where its output fails, within a line or at the flush after it, or where its
input does. What was written before is what a session writes in which nothing breaks.

* `serve_on_a_failing_output` — the output is cut where it fails, and the request whose reply is cut
  is the last one answered.
* `serve_on_a_failing_input` — the lines that are complete before the input breaks are answered, and
  nothing else is; the output decides how the session ends if it fails within these answers.
-/

namespace CompileFlags

/-- A fault in one context is told with that context first. -/
theorem Fault.message_of_context (context : Context) (cause : Cause) :
    (⟨[context], cause⟩ : Fault).message = context.message ++ ": " ++ cause.message := by
  show String.intercalate ": " [context.message, cause.message] = _
  rw [String.intercalate_cons_cons, String.intercalate_singleton]

/-! ## Answered requests in the log -/

/-- Whether an event tells that a request line was answered or refused. -/
def Event.tellsReply : Event → Bool
  | parsedAs _ _ => true
  | refused _ _ => true
  | _ => false

/-- How many request lines a run has answered, as far as its log tells. -/
def Run.repliesTold (r : Run) : Nat := r.events.countP Event.tellsReply

namespace Project

/-- The log is told once of every request line that is answered. -/
theorem countP_replyEvents (p : Project) (request : Nat × Bytes) :
    (p.replyEvents request).countP Event.tellsReply = 1 := by
  have hkeys : ∀ (c : Bool) (e : Event), e.tellsReply = false →
      (if c then [] else [e]).countP Event.tellsReply = 0 := by
    intro c e he
    cases c with
    | true => rfl
    | false => exact List.countP_eq_zero.2 (by simpa using he)
  have hres : ∀ rs : List (String × String),
      (rs.map fun res => Event.resolved res.1 res.2).countP Event.tellsReply = 0 := by
    intro rs
    rw [List.countP_eq_zero]
    intro event he
    obtain ⟨res, -, rfl⟩ := List.mem_map.1 he
    exact Bool.false_ne_true
  unfold replyEvents
  cases Request.ofLine request.2 with
  | error reason => rfl
  | ok r =>
    show (p.answerEvents r).countP Event.tellsReply = 1
    rw [answerEvents, List.countP_append, List.countP_append, List.countP_cons, hres,
      hkeys _ _ rfl, hkeys _ _ rfl]
    rfl

theorem countP_flatMap_replyEvents (p : Project) (requests : List (Nat × Bytes)) :
    (requests.flatMap p.replyEvents).countP Event.tellsReply = requests.length := by
  induction requests with
  | nil => rfl
  | cons request rest ih =>
    rw [List.flatMap_cons, List.countP_append, countP_replyEvents, ih, List.length_cons,
      Nat.add_comm]

/-! ## On an output that fails -/

/-- The lines that answer the requests of an input. -/
def repliesTo (p : Project) (source : Source) : List Bytes :=
  (numberedRequests 0 source.lines).map fun request => p.replyLine request.2

/-- What the log is told of the first so many requests of an input. -/
def toldOfFirst (p : Project) (source : Source) (m : Nat) : List Event :=
  ((numberedRequests 0 source.lines).take m).flatMap p.replyEvents

theorem length_repliesTo (p : Project) (source : Source) :
    (p.repliesTo source).length = (numberedRequests 0 source.lines).length := List.length_map _

theorem countP_toldOfFirst (p : Project) (source : Source) {m : Nat}
    (h : m ≤ (p.repliesTo source).length) :
    (p.toldOfFirst source m).countP Event.tellsReply = m := by
  rw [length_repliesTo] at h
  rw [toldOfFirst, countP_flatMap_replyEvents, List.length_take, Nat.min_eq_left h]

theorem toldOfFirst_min (p : Project) (source : Source) (m : Nat) :
    p.toldOfFirst source (min m (p.repliesTo source).length) = p.toldOfFirst source m := by
  rw [toldOfFirst, toldOfFirst, length_repliesTo, ← List.take_eq_take_min]

theorem output_serve_bytes (p : Project) (source : Source) (n : Nat) (e : IoError) :
    (p.serve source (.bytes n e)).output = (p.repliesTo source).flatten.take n := by
  rw [serve_eq]
  exact Sink.taken_deliver_bytes _ n e

theorem ending_serve_bytes (p : Project) (source : Source) (n : Nat) (e : IoError) :
    (p.serve source (.bytes n e)).ending =
      if (p.repliesTo source).flatten.length ≤ n then inputEnding source.failure
      else outputEnding e := by
  rw [serve_eq]
  show endingOf _ (Sink.deliver (p.repliesTo source) _).failure = _
  rw [Sink.failure_deliver_bytes, endingOf_ite]

/-- Every reply before the last one that was offered is written whole, and unless it is the last of
all, that one is not. -/
theorem events_serve_bytes (p : Project) (source : Source) (n : Nat) (e : IoError) :
    ∃ m ≤ (p.repliesTo source).length,
      (p.serve source (.bytes n e)).events = p.toldOfFirst source m ∧
      ((p.repliesTo source).take (m - 1)).flatten.length ≤ n ∧
      (m = (p.repliesTo source).length ∨ n < ((p.repliesTo source).take m).flatten.length) := by
  have hev : (p.serve source (.bytes n e)).events =
      p.toldOfFirst source (Sink.deliver (p.repliesTo source) (.bytes n e)).offered := by
    rw [serve_eq]
    rfl
  rw [hev]
  by_cases h : (p.repliesTo source).flatten.length ≤ n
  · rw [Sink.deliver_bytes_of_le h]
    have htake := (List.take_sublist ((p.repliesTo source).length - 1) (p.repliesTo source)).flatten
    exact ⟨_, Nat.le_refl _, rfl, htake.length_le.trans h, .inl rfl⟩
  · obtain ⟨m, hm, hlo, hhi, hd⟩ :=
      Sink.deliver_bytes_of_lt e (by omega : n < (p.repliesTo source).flatten.length)
    rw [hd]
    exact ⟨m + 1, hm, rfl, hlo, .inr hhi⟩

theorem output_serve_flushes (p : Project) (source : Source) (k : Nat) (e : IoError) :
    (p.serve source (.flushes k e)).output = ((p.repliesTo source).take (k + 1)).flatten := by
  rw [serve_eq]
  exact Sink.taken_deliver_flushes _ k e

theorem ending_serve_flushes (p : Project) (source : Source) (k : Nat) (e : IoError) :
    (p.serve source (.flushes k e)).ending =
      if (p.repliesTo source).length ≤ k then inputEnding source.failure else outputEnding e := by
  rw [serve_eq]
  show endingOf _ (Sink.deliver (p.repliesTo source) _).failure = _
  rw [Sink.failure_deliver_flushes, endingOf_ite]

theorem events_serve_flushes (p : Project) (source : Source) (k : Nat) (e : IoError) :
    (p.serve source (.flushes k e)).events = p.toldOfFirst source (k + 1) := by
  have hev : (p.serve source (.flushes k e)).events =
      p.toldOfFirst source (Sink.deliver (p.repliesTo source) (.flushes k e)).offered := by
    rw [serve_eq]
    rfl
  rw [hev, Sink.offered_deliver_flushes, toldOfFirst_min]

theorem message_unwrittenReply (e : IoError) :
    (unwrittenReply e).message = "failed to write response to stdout: " ++ e.message := by
  have h : "failed to write response to stdout" ++ ": " =
    "failed to write response to stdout: " := by decide
  exact (Fault.message_of_context _ _).trans (congrArg (· ++ e.message) h)

theorem repliesTo_data (p : Project) (data : Bytes) :
    p.repliesTo { data } = p.replyLines data := map_replyLine_numberedRequests p data

theorem ite_outputEnding (c : Prop) [Decidable c] (e : IoError) :
    (if c then .ok () else outputEnding e) =
      if c ∨ e.isClosed = true then .ok () else .error (unwrittenReply e) := by
  unfold outputEnding
  by_cases hc : c
  · rw [if_pos hc, if_pos (.inl hc)]
  · by_cases he : e.isClosed = true
    · rw [if_neg hc, if_pos he, if_pos (.inr he)]
    · rw [if_neg hc, if_neg he, if_neg (not_or.2 ⟨hc, he⟩)]

/-- **An output that fails cuts the session where it fails.** With room for so many bytes, these are
the first bytes of what the session would have written. If every flush after so many fails, the line
of the failing flush is the last one written. The session ends well if nothing was cut or if nobody
reads the output any more, and with a fault otherwise. The request whose reply is cut is the last
one that is answered: every reply before it was written whole, and unless it is the last of all, its
own was not. -/
theorem serve_on_a_failing_output (p : Project) (data : Bytes) (e : IoError) :
    (∀ n,
      (p.serve { data } (.bytes n e)).output = (p.serve { data } .unlimited).output.take n ∧
      (p.serve { data } (.bytes n e)).ending =
        (if (p.serve { data } .unlimited).output.length ≤ n ∨ e.isClosed = true then .ok ()
          else .error (unwrittenReply e)) ∧
      ∃ m ≤ (p.replyLines data).length,
        (p.serve { data } (.bytes n e)).repliesTold = m ∧
        (p.serve { data } (.bytes n e)).events = p.toldOfFirst { data } m ∧
        ((p.replyLines data).take (m - 1)).flatten.length ≤ n ∧
        (m = (p.replyLines data).length ∨ n < ((p.replyLines data).take m).flatten.length)) ∧
    (∀ k,
      (p.serve { data } (.flushes k e)).output = ((p.replyLines data).take (k + 1)).flatten ∧
      (p.serve { data } (.flushes k e)).ending =
        (if (p.replyLines data).length ≤ k ∨ e.isClosed = true then .ok ()
          else .error (unwrittenReply e)) ∧
      (p.serve { data } (.flushes k e)).repliesTold = min (k + 1) (p.replyLines data).length ∧
      (p.serve { data } (.flushes k e)).events = p.toldOfFirst { data } (k + 1)) ∧
    (p.serve { data } .unlimited).output = (p.replyLines data).flatten ∧
    (unwrittenReply e).message = "failed to write response to stdout: " ++ e.message := by
  have hr := repliesTo_data p data
  refine ⟨?_, ?_, output_serve_unlimited p data, message_unwrittenReply e⟩
  · intro n
    rw [output_serve_unlimited, output_serve_bytes, ending_serve_bytes, hr]
    refine ⟨rfl, ite_outputEnding _ e, ?_⟩
    obtain ⟨m, hm, hev, hlo, hhi⟩ := events_serve_bytes p { data } n e
    refine ⟨m, hr ▸ hm, ?_, hev, hr ▸ hlo, hr ▸ hhi⟩
    rw [Run.repliesTold, hev, countP_toldOfFirst p _ hm]
  · intro k
    have hev := events_serve_flushes p { data } k e
    rw [output_serve_flushes, ending_serve_flushes, hr]
    refine ⟨rfl, ite_outputEnding _ e, ?_, hev⟩
    rw [Run.repliesTold, hev, ← toldOfFirst_min, countP_toldOfFirst p _ (Nat.min_le_right ..), hr]

/-! ## On an input that fails -/

theorem message_unreadRequest (e : IoError) :
    (unreadRequest e).message = "failed to read request from stdin: " ++ e.message := by
  have h : "failed to read request from stdin" ++ ": " =
    "failed to read request from stdin: " := by decide
  exact (Fault.message_of_context _ _).trans (congrArg (· ++ e.message) h)

theorem repliesTo_breakingAfter (p : Project) (data : Bytes) (n : Nat) (e : IoError) :
    p.repliesTo (.breakingAfter data n e) = p.replyLines (completeLines (data.take n)) := by
  rw [← repliesTo_data, repliesTo, repliesTo, lines_breakingAfter]

/-- What a session writes and tells depends on the lines of its input, and not on what comes after
them. -/
theorem serve_congr_lines (p : Project) {s t : Source} (h : s.lines = t.lines) (sink : Sink) :
    (p.serve s sink).output = (p.serve t sink).output ∧
      (p.serve s sink).events = (p.serve t sink).events := by
  rw [serve_eq, serve_eq, h]
  exact ⟨rfl, rfl⟩

theorem ending_serve_breaking_unlimited (p : Project) (data : Bytes) (n : Nat) (e : IoError) :
    (p.serve (.breakingAfter data n e) .unlimited).ending = .error (unreadRequest e) := by
  rw [serve_eq]
  show endingOf _ (Sink.deliver _ _).failure = _
  rw [Sink.deliver_unlimited]
  rfl

/-- **An input that breaks loses no reply and makes up none.** What can be read before it breaks is
complete lines and a piece without a newline. On every output, the session writes and tells what it
does on the complete lines alone, so each of them is answered, with a flush of its own, and the
piece never is. If the output works, the session ends with a fault, whatever the failure is. If the
output fails within these replies, that decides how the session ends, and if it would fail only
after them, the input does. -/
theorem serve_on_a_failing_input (p : Project) (data : Bytes) (n : Nat) (e : IoError) :
    (∃ part, newline ∉ part ∧ data.take n = completeLines (data.take n) ++ part ∧
      (completeLines (data.take n) = [] ∨
        ∃ whole, completeLines (data.take n) = whole ++ [newline])) ∧
    (∀ sink,
      (p.serve (.breakingAfter data n e) sink).output =
        (p.serve { data := completeLines (data.take n) } sink).output ∧
      (p.serve (.breakingAfter data n e) sink).events =
        (p.serve { data := completeLines (data.take n) } sink).events) ∧
    (p.serve (.breakingAfter data n e) .unlimited).ending = .error (unreadRequest e) ∧
    (∀ m e', (p.serve (.breakingAfter data n e) (.bytes m e')).ending =
      if m < (p.serve { data := completeLines (data.take n) } .unlimited).output.length then
        outputEnding e'
      else .error (unreadRequest e)) ∧
    (∀ k e', (p.serve (.breakingAfter data n e) (.flushes k e')).ending =
      if k < (p.replyLines (completeLines (data.take n))).length then outputEnding e'
      else .error (unreadRequest e)) ∧
    (unreadRequest e).message = "failed to read request from stdin: " ++ e.message := by
  have hr := repliesTo_breakingAfter p data n e
  refine ⟨exists_eq_completeLines_append _, ?_, ending_serve_breaking_unlimited p data n e, ?_, ?_,
    message_unreadRequest e⟩
  · intro sink
    exact serve_congr_lines p (lines_breakingAfter data n e) sink
  · intro m e'
    rw [ending_serve_bytes, hr, output_serve_unlimited]
    simp only [← Nat.not_le, ite_not]
    rfl
  · intro k e'
    rw [ending_serve_flushes, hr]
    simp only [← Nat.not_le, ite_not]
    rfl

end Project

end CompileFlags
