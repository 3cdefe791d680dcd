import CompileFlags.Proofs.Delivery
import CompileFlags.Proofs.Lines
import CompileFlags.Proofs.Replies

/-!
# What a session answers

A session is its requests, each answered by one line: what it writes is what the output takes of
these lines, what it tells the log is told of the requests that were offered to it, and it ends as
the output or the input does.

* `Project.serve_eq` — this description, for every input and every output.
* `Project.serve_line_by_line` — on an input and an output that work, the output is the replies to
  the requests, each on a line of its own.
-/

namespace CompileFlags

namespace Project

/-! ## Replies and the log -/

/-- The reply to a request line. -/
def reply (p : Project) (line : Bytes) : Reply :=
  match Request.ofLine line with
  | .ok r => .answer (p.answer r)
  | .error reason => .refusal reason

/-- What the log is told of a request line with a number. -/
def replyEvents (p : Project) (request : Nat × Bytes) : List Event :=
  match Request.ofLine request.2 with
  | .ok r => p.answerEvents r
  | .error reason => [.refused request.1 reason]

theorem replyTo_eq (p : Project) (number : Nat) (line : Bytes) :
    p.replyTo number line = (p.reply line, p.replyEvents (number, line)) := by
  unfold replyTo reply replyEvents
  cases Request.ofLine line <;> rfl

/-- The line of output that answers a request line. -/
def replyLine (p : Project) (line : Bytes) : Bytes :=
  Utf8.encode (p.reply line).written ++ [newline]

/-- The lines of output that answer an input. -/
def replyLines (p : Project) (data : Bytes) : List Bytes := (requestLines data).map p.replyLine

theorem replyTo?_of_blank (p : Project) (number : Nat) {line : Bytes}
    (h : (withoutReturn line).all Text.isBlankByte = true) : p.replyTo? number line = none := by
  simp only [replyTo?, h, if_true]

theorem replyTo?_of_not_blank (p : Project) (number : Nat) {line : Bytes}
    (h : (withoutReturn line).all Text.isBlankByte = false) :
    p.replyTo? number line =
      some (p.reply (withoutReturn line), p.replyEvents (number, withoutReturn line)) := by
  simp only [replyTo?, h, replyTo_eq]
  rfl

/-! ## The whole session -/

/-- The fault of a session whose input breaks. -/
def unreadRequest (e : IoError) : Fault := ⟨[.readingRequest], .io e⟩

/-- How a session ends that comes to the end of its input, or to where its input breaks. -/
def inputEnding : Option IoError → Except Fault Unit
  | none => .ok ()
  | some e => .error (unreadRequest e)

/-- The fault of a session whose output fails while somebody reads it. -/
def unwrittenReply (e : IoError) : Fault := ⟨[.writingReply], .io e⟩

/-- How a session ends whose output fails: well, if nobody reads it any more. -/
def outputEnding (e : IoError) : Except Fault Unit :=
  if e.isClosed then .ok () else .error (unwrittenReply e)

theorem verdict_writingReply (e : IoError) : Sink.verdict .writingReply e = outputEnding e := by
  unfold Sink.verdict outputEnding
  cases e.isClosed <;> rfl

/-- How a session ends: a line that cannot be written ends it before the input does. -/
def endingOf (input output : Option IoError) : Except Fault Unit :=
  match output with
  | some e => outputEnding e
  | none => inputEnding input

theorem endingOf_ite (input : Option IoError) (c : Prop) [Decidable c] (e : IoError) :
    endingOf input (if c then none else some e) =
      if c then inputEnding input else outputEnding e :=
  apply_ite (endingOf input) c none (some e)

/-- What comes of answering requests on an output, before an input fails or ends. -/
def answered (p : Project) (failure : Option IoError) (requests : List (Nat × Bytes))
    (sink : Sink) : Run :=
  let d := sink.deliver (requests.map fun request => p.replyLine request.2)
  { output := d.taken
    events := (requests.take d.offered).flatMap p.replyEvents
    ending := endingOf failure d.failure }

theorem answered_cons_of_failure (p : Project) (failure : Option IoError)
    (request : Nat × Bytes) (rest : List (Nat × Bytes)) {sink : Sink} {e : IoError}
    (h : (sink.putFlushed (p.replyLine request.2)).failure = some e) :
    p.answered failure (request :: rest) sink =
      { output := (sink.putFlushed (p.replyLine request.2)).taken
        events := p.replyEvents request
        ending := outputEnding e } := by
  rw [answered, List.map_cons, Sink.deliver_cons_of_failure h, List.take_succ_cons, List.take_zero,
    List.flatMap_cons, List.flatMap_nil, List.append_nil]
  rfl

theorem answered_cons_of_put (p : Project) (failure : Option IoError)
    (request : Nat × Bytes) (rest : List (Nat × Bytes)) {sink : Sink}
    (h : (sink.putFlushed (p.replyLine request.2)).failure = none) :
    p.answered failure (request :: rest) sink =
      (p.answered failure rest (sink.putFlushed (p.replyLine request.2)).next).after
        (sink.putFlushed (p.replyLine request.2)).taken (p.replyEvents request) := by
  rw [answered, List.map_cons, Sink.deliver_cons_of_put h, List.take_succ_cons, List.flatMap_cons]
  rfl

/-- Reading and answering one line after another answers the requests among the lines. -/
theorem serveLines_eq (p : Project) (failure : Option IoError) (before : Nat) (lines : List Bytes)
    (sink : Sink) :
    p.serveLines failure before lines sink =
      p.answered failure (numberedRequests before lines) sink := by
  induction lines generalizing before sink with
  | nil => cases failure <;> rfl
  | cons line rest ih =>
    rw [serveLines, numberedRequests_cons]
    cases hb : (withoutReturn line).all Text.isBlankByte with
    | true =>
      rw [replyTo?_of_blank p _ hb, if_pos rfl]
      exact ih (before + 1) sink
    | false =>
      rw [replyTo?_of_not_blank p _ hb, if_neg (by simp)]
      obtain ⟨request, hr⟩ : ∃ r : Nat × Bytes, r = (before + 1, withoutReturn line) := ⟨_, rfl⟩
      have hl : Sink.lineOf (p.reply (withoutReturn line)).written = p.replyLine request.2 := by
        rw [hr]
        rfl
      rw [← hr]
      dsimp only
      rw [hl]
      cases hf : (sink.putFlushed (p.replyLine request.2)).failure with
      | some e => rw [answered_cons_of_failure p failure request _ hf, ← verdict_writingReply]
      | none => rw [answered_cons_of_put p failure request _ hf, ih]

/-- **A session answers the requests of its input**, as far as the output takes them. -/
theorem serve_eq (p : Project) (source : Source) (sink : Sink) :
    p.serve source sink = p.answered source.failure (numberedRequests 0 source.lines) sink :=
  serveLines_eq p source.failure 0 source.lines sink

/-! ## Sessions in which nothing breaks -/

theorem map_replyLine_numberedRequests (p : Project) (data : Bytes) :
    (numberedRequests 0 (Source.lines { data })).map (fun request => p.replyLine request.2) =
      p.replyLines data := by
  rw [replyLines, ← requestLines_eq_of_lines, List.map_map]
  rfl

theorem output_serve_unlimited (p : Project) (data : Bytes) :
    (p.serve { data } .unlimited).output = (p.replyLines data).flatten := by
  rw [serve_eq]
  show (Sink.deliver _ _).taken = _
  rw [map_replyLine_numberedRequests, Sink.deliver_unlimited]

theorem ending_serve_unlimited (p : Project) (data : Bytes) :
    (p.serve { data } .unlimited).ending = .ok () := by
  rw [serve_eq]
  show endingOf none (Sink.deliver _ _).failure = _
  rw [Sink.deliver_unlimited]
  rfl

theorem events_serve_unlimited (p : Project) (data : Bytes) :
    (p.serve { data } .unlimited).events =
      (numberedRequests 0 (Source.lines { data })).flatMap p.replyEvents := by
  rw [serve_eq]
  show (List.take (Sink.deliver _ _).offered _).flatMap _ = _
  rw [Sink.deliver_unlimited, List.length_map, List.take_length]

theorem newline_notMem_written (reply : Reply) : newline ∉ Utf8.encode reply.written := by
  intro h
  have := Reply.le_toNat_of_mem_written h
  revert this
  decide

/-- Cut at its newlines, the output is the replies, and nothing after the last of them. -/
theorem pieces_flatten_replyLines (p : Project) (data : Bytes) :
    pieces (· == newline) (p.replyLines data).flatten =
      (requestLines data).map (fun line => Utf8.encode (p.reply line).written) ++ [[]] := by
  obtain ⟨texts, ht⟩ : ∃ texts, texts =
      (requestLines data).map fun line => Utf8.encode (p.reply line).written := ⟨_, rfl⟩
  have hlines : (p.replyLines data).flatten = texts.flatMap fun text => text ++ [newline] := by
    rw [ht, replyLines, List.flatMap_map, List.flatMap_def]
    rfl
  rw [← ht, hlines]
  apply pieces_flatMap_ended (by decide)
  intro text htext
  rw [ht] at htext
  obtain ⟨line, -, rfl⟩ := List.mem_map.1 htext
  exact forall_beq_eq_false_iff.2 (newline_notMem_written _)

/-! ## Answers and refusals -/

theorem ofLine_eq_ok_iff (line : Bytes) (r : Request) :
    Request.ofLine line = .ok r ↔
      ∃ text, line = Utf8.encode text ∧ Request.ofText text = .ok r := by
  unfold Request.ofLine
  constructor
  · intro h
    cases hd : Utf8.decode line with
    | error e =>
      rw [hd] at h
      cases h
    | ok text =>
      simp only [hd] at h
      refine ⟨text, Utf8.decode_eq_ok_iff.1 hd, ?_⟩
      cases ht : Request.ofText text with
      | error e =>
        rw [ht] at h
        cases h
      | ok r' =>
        rw [ht] at h
        cases h
        rfl
  · rintro ⟨text, rfl, ht⟩
    rw [Utf8.decode_encode]
    simp only [ht]
    rfl

/-- A line is answered exactly when it is a text that is a request. -/
theorem reply_eq_answer_iff (p : Project) (line : Bytes) (a : Answer) :
    p.reply line = .answer a ↔
      ∃ text r, line = Utf8.encode text ∧ Request.ofText text = .ok r ∧ a = p.answer r := by
  unfold reply
  constructor
  · intro h
    cases hr : Request.ofLine line with
    | error reason =>
      rw [hr] at h
      cases h
    | ok r =>
      rw [hr] at h
      obtain ⟨text, hl, ht⟩ := (ofLine_eq_ok_iff line r).1 hr
      exact ⟨text, r, hl, ht, (Reply.answer.inj h).symm⟩
  · rintro ⟨text, r, hl, ht, rfl⟩
    rw [(ofLine_eq_ok_iff line r).2 ⟨text, hl, ht⟩]

/-- A line is refused exactly when it is no text, or a text that is no request. -/
theorem exists_reply_eq_refusal_iff (p : Project) (line : Bytes) :
    (∃ reason, p.reply line = .refusal reason) ↔
      (∀ text, line ≠ Utf8.encode text) ∨
        ∃ text e, line = Utf8.encode text ∧ Request.ofText text = .error e := by
  constructor
  · rintro ⟨reason, h⟩
    by_cases hl : ∃ text, line = Utf8.encode text
    · obtain ⟨text, hl⟩ := hl
      refine .inr ⟨text, ?_⟩
      cases ht : Request.ofText text with
      | error e => exact ⟨e, hl, rfl⟩
      | ok r =>
        rw [(reply_eq_answer_iff p line (p.answer r)).2 ⟨text, r, hl, ht, rfl⟩] at h
        cases h
    · exact .inl fun text ht => hl ⟨text, ht⟩
  · intro h
    cases hr : p.reply line with
    | refusal reason => exact ⟨reason, rfl⟩
    | answer a =>
      obtain ⟨text, r, hl, ht, -⟩ := (reply_eq_answer_iff p line a).1 hr
      rcases h with h | ⟨text', e, hl', ht'⟩
      · exact absurd hl (h text)
      · have hd : Utf8.decode line = .ok text := Utf8.decode_eq_ok_iff.2 hl
        rw [Utf8.decode_eq_ok_iff.2 hl', Except.ok.injEq] at hd
        rw [hd, ht] at ht'
        cases ht'

/-- **A session answers its input line by line.** It ends well, and its output is one line for each
piece of the input between newlines that is not blank without the return at its end, in order: the
reply to that piece, in which no newline stands. So the lines of the output and the requests
correspond. A piece is refused exactly when it is no text or no request, and answered as the request
it is otherwise. What a piece of the input comes to does not depend on what stands before or after
it: cut at any newline, the two parts give the two parts of the output. -/
theorem serve_line_by_line (p : Project) (data : Bytes) :
    (p.serve { data } .unlimited).ending = .ok () ∧
    (p.serve { data } .unlimited).output =
      (requestLines data).flatMap (fun line => Utf8.encode (p.reply line).written ++ [newline]) ∧
    (∀ reply : Reply, newline ∉ Utf8.encode reply.written) ∧
    pieces (· == newline) (p.serve { data } .unlimited).output =
      (requestLines data).map (fun line => Utf8.encode (p.reply line).written) ++ [[]] ∧
    (∀ line, (∃ reason, p.reply line = .refusal reason) ↔
      (∀ text, line ≠ Utf8.encode text) ∨
        ∃ text e, line = Utf8.encode text ∧ Request.ofText text = .error e) ∧
    (∀ line a, p.reply line = .answer a ↔
      ∃ text r, line = Utf8.encode text ∧ Request.ofText text = .ok r ∧ a = p.answer r) ∧
    ∀ before after, (p.serve { data := before ++ newline :: after } .unlimited).output =
      (p.serve { data := before } .unlimited).output ++
        (p.serve { data := after } .unlimited).output := by
  refine ⟨ending_serve_unlimited p data, ?_, newline_notMem_written, ?_,
    exists_reply_eq_refusal_iff p, reply_eq_answer_iff p, ?_⟩
  · rw [output_serve_unlimited, replyLines, List.flatMap_def]
    rfl
  · rw [output_serve_unlimited, pieces_flatten_replyLines]
  · intro before after
    rw [output_serve_unlimited, output_serve_unlimited, output_serve_unlimited, replyLines,
      requestLines_append_cons, List.map_append, List.flatten_append]
    rfl

end Project

end CompileFlags
