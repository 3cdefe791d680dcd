import CompileFlags.Proofs.RepliesReadBack
import CompileFlags.Proofs.ServedLines

/-!
# Where the warnings of a session point

A session warns of every line that it refuses. Lines are counted as they are read, before blank ones
are passed over, so a warning names the line that a reader of the input finds: its number is one
more than there are newlines in front of it.

* `IsLineOf` — a line of an input and what stands before it; `isLineOf_iff` — these are the pieces
  of the input between its newlines.
* `mem_numberedRequests_iff` — the numbers of the requests count the newlines before them.
* `Project.warnings_serve` — a session warns of its refusals and of nothing else.
* `Project.warnings_point_at_lines` — the warnings against the output and the input.
-/

namespace CompileFlags

/-! ## Lines in their places -/

/-- Some bytes of an input are a line of it: they hold no newline, and stand between the start of
the input or a newline and a newline or the end of the input. -/
structure IsLineOf (data before line : Bytes) : Prop where
  starts : before = [] ∨ ∃ whole, before = whole ++ [newline]
  whole : newline ∉ line
  ends : data = before ++ line ∨ ∃ after, data = before ++ line ++ newline :: after

/-- Pieces that each have a newline behind them end in one, if there are any. -/
theorem flatMap_ended (ps : List Bytes) :
    (ps.flatMap fun piece => piece ++ [newline]) = [] ∨
      ∃ whole, (ps.flatMap fun piece => piece ++ [newline]) = whole ++ [newline] := by
  rcases List.eq_nil_or_concat ps with rfl | ⟨first, last, rfl⟩
  · exact .inl rfl
  · refine .inr ⟨(first.flatMap fun piece => piece ++ [newline]) ++ last, ?_⟩
    rw [List.concat_eq_append, List.flatMap_append, List.flatMap_singleton, List.append_assoc]

/-- The lines of an input are its pieces, and behind the pieces before it each has a newline. -/
theorem isLineOf_iff {data before line : Bytes} :
    IsLineOf data before line ↔
      ∃ ps qs, pieces (· == newline) data = ps ++ line :: qs ∧
        before = ps.flatMap fun piece => piece ++ [newline] := by
  constructor
  · intro h
    obtain ⟨rest, hdata, qs, hrest⟩ : ∃ rest, data = before ++ rest ∧
        ∃ qs, pieces (· == newline) rest = line :: qs := by
      rcases h.ends with hend | ⟨after, hend⟩
      · exact ⟨line, hend, [], pieces_of_notMem h.whole⟩
      · refine ⟨line ++ newline :: after, by rw [hend, List.append_assoc],
          pieces (· == newline) after, ?_⟩
        rw [pieces_append_cons (by decide), pieces_of_notMem h.whole]
        rfl
    rcases h.starts with rfl | ⟨whole, rfl⟩
    · exact ⟨[], qs, by rw [hdata]; exact hrest, rfl⟩
    · refine ⟨pieces (· == newline) whole, qs, ?_, (flatMap_pieces newline whole).symm⟩
      rw [hdata, List.append_assoc, List.singleton_append, pieces_append_cons (by decide), hrest]
  · rintro ⟨ps, qs, hp, rfl⟩
    have hall := flatMap_pieces newline data
    rw [hp, List.flatMap_append, List.flatMap_cons] at hall
    refine ⟨flatMap_ended ps, sep_notMem_of_mem_pieces (l := data) (by rw [hp]; simp), ?_⟩
    rcases flatMap_ended qs with hqs | ⟨after, hqs⟩
    · rw [hqs, List.append_nil, ← List.append_assoc] at hall
      exact .inl (List.append_cancel_right hall).symm
    · rw [hqs, ← List.append_assoc, ← List.append_assoc, ← List.append_assoc] at hall
      refine .inr ⟨after, ?_⟩
      rw [← List.append_cancel_right hall, List.append_assoc _ [newline], List.singleton_append]

/-- Each piece before a line brings in one newline. -/
theorem count_newline_flatMap {ps : List Bytes} (h : ∀ piece ∈ ps, newline ∉ piece) :
    (ps.flatMap fun piece => piece ++ [newline]).count newline = ps.length := by
  induction ps with
  | nil => rfl
  | cons piece more ih =>
    rw [List.flatMap_cons, List.count_append, List.count_append,
      List.count_eq_zero_of_not_mem (h piece List.mem_cons_self),
      ih fun p hp => h p (List.mem_cons_of_mem _ hp), List.count_singleton_self, List.length_cons]
    omega

/-! ## Numbers -/

/-- The number of a request counts the lines before it, blank or not. -/
theorem mem_numberedRequests {before number : Nat} {line : Bytes} {lines : List Bytes} :
    (number, line) ∈ numberedRequests before lines ↔
      ∃ ps raw qs, lines = ps ++ raw :: qs ∧ number = before + ps.length + 1 ∧
        line = withoutReturn raw ∧ line.all Text.isBlankByte = false := by
  constructor
  · intro h
    induction lines generalizing before with
    | nil => cases h
    | cons raw rest ih =>
      have hrest (h : (number, line) ∈ numberedRequests (before + 1) rest) :
          ∃ ps raw' qs, raw :: rest = ps ++ raw' :: qs ∧ number = before + ps.length + 1 ∧
            line = withoutReturn raw' ∧ line.all Text.isBlankByte = false := by
        obtain ⟨ps, raw', qs, rfl, rfl, hline⟩ := ih h
        exact ⟨raw :: ps, raw', qs, rfl, by rw [List.length_cons]; omega, hline⟩
      rw [numberedRequests_cons] at h
      split at h
      · exact hrest h
      · rename_i hblank
        rcases List.mem_cons.1 h with h | h
        · obtain ⟨rfl, rfl⟩ := Prod.mk.inj h
          exact ⟨[], raw, rest, rfl, rfl, rfl, Bool.eq_false_iff.2 hblank⟩
        · exact hrest h
  · rintro ⟨ps, raw, qs, rfl, rfl, rfl, hblank⟩
    rw [numberedRequests_append, numberedRequests_cons, hblank]
    exact List.mem_append_right _ List.mem_cons_self

/-- Later requests have greater numbers. -/
theorem pairwise_numberedRequests (before : Nat) (lines : List Bytes) :
    (numberedRequests before lines).Pairwise fun a b => a.1 < b.1 := by
  induction lines generalizing before with
  | nil => exact .nil
  | cons raw rest ih =>
    rw [numberedRequests_cons]
    split
    · exact ih (before + 1)
    · refine .cons ?_ (ih (before + 1))
      rintro ⟨number, line⟩ h
      obtain ⟨ps, -, -, -, rfl, -⟩ := mem_numberedRequests.1 h
      show before + 1 < before + 1 + ps.length + 1
      omega

/-- **The number of a request is one more than there are newlines before it.** -/
theorem mem_numberedRequests_iff {data line : Bytes} {number : Nat} :
    (number, line) ∈ numberedRequests 0 (Source.lines { data }) ↔
      ∃ before raw, IsLineOf data before raw ∧ number = before.count newline + 1 ∧
        line = withoutReturn raw ∧ line.all Text.isBlankByte = false := by
  have hcount {ps qs : List Bytes} {raw : Bytes}
      (h : pieces (· == newline) data = ps ++ raw :: qs) :
      (ps.flatMap fun piece => piece ++ [newline]).count newline = ps.length :=
    count_newline_flatMap fun piece hpiece =>
      sep_notMem_of_mem_pieces (h ▸ List.mem_append_left _ hpiece)
  rw [numberedRequests_lines, mem_numberedRequests]
  constructor
  · rintro ⟨ps, raw, qs, hp, rfl, hline⟩
    refine ⟨_, raw, isLineOf_iff.2 ⟨ps, qs, hp, rfl⟩, ?_, hline⟩
    rw [hcount hp, Nat.zero_add]
  · rintro ⟨before, raw, hraw, rfl, hline⟩
    obtain ⟨ps, qs, hp, rfl⟩ := isLineOf_iff.1 hraw
    exact ⟨ps, raw, qs, hp, by rw [hcount hp, Nat.zero_add], hline⟩

/-! ## Warnings -/

/-- The messages of the warnings of a run. -/
def Run.warnings (r : Run) : List String :=
  (r.events.filter fun e => e.level = .warn).map Event.message

/-- The text that a line of output gives as its error, if it does. -/
def errorText? (line : Bytes) : Option String :=
  (Json.Outline.ofBytes? line).bind Reply.reasonOf?

/-- What a session warns of for a request with a number and the reply to it. -/
def warningFor? (request : Nat × Bytes) (reply : Bytes) : Option String :=
  (errorText? reply).map fun reason =>
    "request on line " ++ toString request.1 ++ ": " ++ reason

namespace Project

theorem errorText?_answer (a : Answer) :
    errorText? (Utf8.encode (Reply.answer a).written) = none := by
  rw [errorText?, Reply.ofBytes?_written]
  rfl

theorem errorText?_refusal (reason : String) :
    errorText? (Utf8.encode (Reply.refusal reason).written) = some reason := by
  rw [errorText?, Reply.ofBytes?_written]
  rfl

theorem level_ne_warn_of_mem_answerEvents {p : Project} {r : Request} {e : Event}
    (h : e ∈ p.answerEvents r) : e.level ≠ .warn := by
  rw [answerEvents, List.mem_append, List.mem_append, List.mem_cons, List.mem_map] at h
  rcases h with (h | h) | rfl | ⟨res, -, rfl⟩
  · split at h
    · cases h
    · rw [List.mem_singleton.1 h]
      exact Level.noConfusion
  · split at h
    · cases h
    · rw [List.mem_singleton.1 h]
      exact Level.noConfusion
  · exact Level.noConfusion
  · exact Level.noConfusion

/-- Of a request the log is warned exactly if its reply has an error. -/
theorem warnings_replyEvents (p : Project) (request : Nat × Bytes) :
    ((p.replyEvents request).filter fun e => e.level = .warn).map Event.message =
      (warningFor? request (Utf8.encode (p.reply request.2).written)).toList := by
  rw [replyEvents, reply, warningFor?]
  cases Request.ofLine request.2 with
  | ok r =>
    have hnone : ((p.answerEvents r).filter fun e => e.level = .warn) = [] := by
      rw [List.filter_eq_nil_iff]
      intro e he
      rw [decide_eq_true_eq]
      exact level_ne_warn_of_mem_answerEvents he
    dsimp only
    rw [hnone, errorText?_answer]
    rfl
  | error reason =>
    dsimp only
    rw [errorText?_refusal]
    rfl

/-- **A session warns of its refusals and of nothing else.** -/
theorem warnings_serve (p : Project) (data : Bytes) :
    (p.serve { data } .unlimited).warnings =
      (numberedRequests 0 (Source.lines { data })).filterMap fun request =>
        warningFor? request (Utf8.encode (p.reply request.2).written) := by
  rw [Run.warnings, events_serve_unlimited, List.filter_flatMap, List.map_flatMap,
    List.filterMap_eq_flatMap_toList]
  exact congrArg (List.flatMap · _) (funext p.warnings_replyEvents)

/-- **A warning points at the line that was refused.** The requests of an input are its lines that
are not blank without the return at their end, in order; the number of a request is one more than
there are newlines before its line. The output of a session is one line for each request, its reply,
and the session warns of the requests whose lines of output have an error, in order: it tells the
number of the request and the text of the error. It warns of nothing else. -/
theorem warnings_point_at_lines (p : Project) (data : Bytes) :
    let run := p.serve { data } .unlimited
    ∃ (requests : List (Nat × Bytes)) (replies : List Bytes),
      requests.Pairwise (fun a b => a.1 < b.1) ∧
      (∀ number line, (number, line) ∈ requests ↔
        ∃ before raw, IsLineOf data before raw ∧ number = before.count newline + 1 ∧
          line = withoutReturn raw ∧ line.all Text.isBlankByte = false) ∧
      replies = requests.map (fun request => Utf8.encode (p.reply request.2).written) ∧
      pieces (· == newline) run.output = replies ++ [[]] ∧
      run.warnings = (requests.zip replies).filterMap fun answered =>
        (errorText? answered.2).map fun reason =>
          "request on line " ++ toString answered.1.1 ++ ": " ++ reason := by
  intro run
  refine ⟨numberedRequests 0 (Source.lines { data }), _, pairwise_numberedRequests 0 _,
    fun number line => mem_numberedRequests_iff, rfl, ?_, ?_⟩
  · show pieces _ (p.serve { data } .unlimited).output = _
    rw [output_serve_unlimited, pieces_flatten_replyLines, ← requestLines_eq_of_lines,
      List.map_map]
    rfl
  · show (p.serve { data } .unlimited).warnings = _
    rw [warnings_serve, ← List.map_prod_left_eq_zip, List.filterMap_map]
    rfl

end Project

end CompileFlags
