import CompileFlags.Program
import CompileFlags.Proofs.ServedLines

/-!
# What a run does before it writes

A run first finds out what is to be written: it reads its arguments, loads a project or finds a
root. All this may fail, and nothing is written before. What comes then is a plan, and only the
input and the output can fail it.

* `Program.run_eq_outcome` — a run is its plan, carried out, or the fault for which there is none.
* `Plan.carryOut_unlimited` — on an input and an output that work, every plan ends well.
* `Program.run_succeeds_or_fails_cleanly` — a run either ends well or writes nothing.
-/

namespace CompileFlags

/-! ## Plans -/

/-- What a run is left to do when it has everything that it needs. -/
inductive Plan where
  /-- Write a text at once. -/
  | text (content : String)
  /-- Write lines one after another. -/
  | lines (entries : List String)
  /-- Answer the requests of the input. -/
  | session (p : Project)

namespace Plan

/-- Carries out a plan. -/
def carryOut (input : Source) (output : Sink) : Plan → Run
  | text content => .ofText content output
  | lines entries => .ofLines entries output
  | session p => p.serve input output

/-- What a run comes to that has a plan, or has failed to find one. -/
def outcome (input : Source) (output : Sink) : Except Fault Plan → Run
  | .ok plan => plan.carryOut input output
  | .error f => .failed f

/-- What a plan writes on an output that works. -/
def written (data : Bytes) : Plan → Bytes
  | text content => Utf8.encode content
  | lines entries => (entries.map Sink.lineOf).flatten
  | session p => (p.replyLines data).flatten

theorem ofLines_unlimited (lines : List String) :
    Run.ofLines lines .unlimited = { output := (lines.map Sink.lineOf).flatten } := by
  induction lines with
  | nil => rfl
  | cons line rest ih =>
    rw [Run.ofLines]
    show (Run.ofLines rest .unlimited).after (Sink.lineOf line) [] = _
    rw [ih]
    rfl

/-- On an input and an output that work, a plan ends well when all is written. -/
theorem carryOut_unlimited (plan : Plan) (data : Bytes) :
    (plan.carryOut { data } .unlimited).output = plan.written data ∧
      (plan.carryOut { data } .unlimited).ending = .ok () := by
  cases plan with
  | text content => exact ⟨rfl, rfl⟩
  | lines entries =>
    rw [carryOut, ofLines_unlimited]
    exact ⟨rfl, rfl⟩
  | session p => exact ⟨p.output_serve_unlimited data, p.ending_serve_unlimited data⟩

end Plan

/-- A run that starts with a step comes to what the step and the plan behind it come to. -/
theorem Run.ofTraced_eq_outcome {α : Type} {t : Traced α} {next : α → Run} {input : Source}
    {output : Sink} {plan : α → Except Fault Plan}
    (h : ∀ a, ∃ events, next a = (Plan.outcome input output (plan a)).after [] events) :
    ∃ events, ofTraced t next =
      (Plan.outcome input output (t.result.bind plan)).after [] events := by
  unfold ofTraced
  cases t.result with
  | error f => exact ⟨t.events, by simp [Except.bind, Plan.outcome, failed, after]⟩
  | ok a =>
    obtain ⟨events, hnext⟩ := h a
    exact ⟨t.events ++ events, by simp [hnext, Except.bind, after]⟩

/-! ## Runs -/

namespace Program

/-- What is to be done with a project. -/
def planOfTask (terminal : Bool) (p : Project) : Task → Plan
  | .table color filter => .text (tableOf (color.applies terminal) filter p)
  | .classify file => .lines [(p.languageOf file).name]
  | .flags file layout noCache => .lines (answerLines layout (p.answer (requestOf file noCache)))
  | .serve => .session p

/-- What a command is to do, once it has its project or its root. -/
def planOfCommand (files : Surroundings) (terminal : Bool) (revision : Option String) :
    Command → Except Fault Plan
  | .onProject l task => (l.load files).result.map fun p => planOfTask terminal p task
  | .normalize o => (rootOf files o).map fun root => .lines (normalize o.flags root)
  | .version => .ok (.lines [version revision])

/-- What a run with arguments is to do. Neither its input nor its output has a say in it. -/
def planOf (files : Surroundings) (terminal : Bool) (revision : Option String) (args : List Bytes) :
    Except Fault Plan :=
  (Command.ofArguments args).bind (planOfCommand files terminal revision)

variable {files : Surroundings} {terminal : Bool} {revision : Option String} {args : List Bytes}

/-- What is to be done for a task is to load its project first. -/
theorem planOf_onProject {l : Loading} {task : Task}
    (h : Command.ofArguments args = .ok (.onProject l task)) :
    planOf files terminal revision args =
      (l.load files).result.map fun p => planOfTask terminal p task := by
  rw [planOf, h]
  rfl

theorem runTask_eq_outcome (c : Console) (p : Project) (task : Task) :
    ∃ events, runTask c p task =
      (Plan.outcome c.input c.output (.ok (planOfTask c.terminal p task))).after [] events := by
  cases task <;> exact ⟨_, rfl⟩

theorem runCommand_eq_outcome (c : Console) (command : Command) :
    ∃ events, runCommand c command =
      (Plan.outcome c.input c.output
        (planOfCommand c.files c.terminal c.revision command)).after [] events := by
  cases command with
  | onProject l task => exact Run.ofTraced_eq_outcome fun p => runTask_eq_outcome c p task
  | normalize o => exact Run.ofTraced_eq_outcome fun root => ⟨_, rfl⟩
  | version => exact ⟨[], rfl⟩

/-- A run comes to what its plan comes to, or to the fault for which it has none. -/
theorem run_eq_outcome (c : Console) (args : List Bytes) :
    ∃ events, run c args =
      (Plan.outcome c.input c.output (planOf c.files c.terminal c.revision args)).after [] events :=
  Run.ofTraced_eq_outcome (runCommand_eq_outcome c)

theorem output_run (c : Console) (args : List Bytes) :
    (run c args).output =
      (Plan.outcome c.input c.output (planOf c.files c.terminal c.revision args)).output := by
  obtain ⟨events, h⟩ := run_eq_outcome c args
  rw [h]
  rfl

theorem ending_run (c : Console) (args : List Bytes) :
    (run c args).ending =
      (Plan.outcome c.input c.output (planOf c.files c.terminal c.revision args)).ending := by
  obtain ⟨events, h⟩ := run_eq_outcome c args
  rw [h]
  rfl

/-- A run without a plan comes to nothing but its fault. -/
theorem run_of_planOf_error {c : Console} {f : Fault}
    (h : planOf c.files c.terminal c.revision args = .error f) :
    (run c args).output = [] ∧ (run c args).ending = .error f := by
  rw [output_run, ending_run, h]
  exact ⟨rfl, rfl⟩

/-- A run with a plan comes to what the plan does, and to a good end, if nothing breaks. -/
theorem run_of_planOf_ok {plan : Plan} (h : planOf files terminal revision args = .ok plan)
    (data : Bytes) :
    (run { files, input := { data }, output := .unlimited, terminal, revision } args).output =
        plan.written data ∧
      (run { files, input := { data }, output := .unlimited, terminal, revision } args).ending =
        .ok () := by
  rw [output_run, ending_run, h]
  exact plan.carryOut_unlimited data

/-- A run that ends well has a plan. -/
theorem exists_planOf {c : Console} (h : (run c args).ending = .ok ()) :
    ∃ plan, planOf c.files c.terminal c.revision args = .ok plan := by
  cases hp : planOf c.files c.terminal c.revision args with
  | ok plan => exact ⟨plan, rfl⟩
  | error f =>
    rw [(run_of_planOf_error hp).2] at h
    cases h

/-- Whether there is a plan depends neither on where the output goes nor on the revision. -/
theorem planOf_error_of_files {other : Bool} {otherRevision : Option String} {f : Fault}
    (h : planOf files terminal revision args = .error f) :
    planOf files other otherRevision args = .error f := by
  -- the table of a project looks different on a terminal, but it needs the project first, and there
  -- is always a version to write
  have hcommand (command : Command)
      (hc : planOfCommand files terminal revision command = .error f) :
      planOfCommand files other otherRevision command = .error f := by
    cases command with
    | onProject l task =>
      rw [planOfCommand] at hc ⊢
      cases hl : (l.load files).result with
      | error g =>
        rw [hl] at hc
        cases hc
        rfl
      | ok p =>
        rw [hl] at hc
        cases hc
    | normalize o => exact hc
    | version => cases hc
  rw [planOf] at h ⊢
  cases ha : Command.ofArguments args with
  | error g =>
    rw [ha] at h
    cases h
    rfl
  | ok command =>
    rw [ha] at h
    exact hcommand command h

end Program

namespace Run

theorem exitCode_of_ok {r : Run} (h : r.ending = .ok ()) : r.exitCode = 0 := by
  rw [exitCode, h]

theorem ok_of_exitCode {r : Run} (h : r.exitCode = 0) : r.ending = .ok () := by
  unfold exitCode at h
  split at h
  · assumption
  · cases h

theorem exitCode_of_error {r : Run} {f : Fault} (h : r.ending = .error f) : r.exitCode = 1 := by
  rw [exitCode, h]

theorem complaint_of_ok {r : Run} (h : r.ending = .ok ()) (detailed : Bool) :
    r.complaint detailed = "" := by
  rw [complaint, h]

theorem complaint_of_error {r : Run} {f : Fault} (h : r.ending = .error f) (detailed : Bool) :
    r.complaint detailed = (if detailed then f.detailed else f.message) ++ "\n" := by
  rw [complaint, h]

/-- A failure without context is told in one way, however much is asked for. -/
theorem complaint_of_cause {r : Run} {cause : Cause} (h : r.ending = .error (.ofCause cause))
    (detailed : Bool) : r.complaint detailed = cause.message ++ "\n" := by
  rw [complaint_of_error h]
  cases detailed <;> rfl

/-- What is said about a failure ends with a newline, so something is said. -/
theorem complaint_ne_empty {r : Run} {f : Fault} (h : r.ending = .error f) (detailed : Bool) :
    r.complaint detailed ≠ "" := by
  rw [complaint_of_error h, ne_eq, String.append_eq_empty_iff]
  exact fun hempty => absurd hempty.2 (by decide)

end Run

namespace Program

theorem exitCode_of_planOf_error {c : Console} {args : List Bytes} {f : Fault}
    (h : planOf c.files c.terminal c.revision args = .error f) : (run c args).exitCode = 1 :=
  Run.exitCode_of_error (run_of_planOf_error h).2

/-- **A run succeeds or fails cleanly.** If its input and its output work, it ends with exit code
zero and without a complaint, or it ends with exit code one, has written nothing, and complains. All
that can fail it comes before the first byte that it writes: it would fail in the same way on every
other input and every other output, and write nothing there, either. On another input that works it
ends in the same way, so no request makes it fail. A help is a complaint and never written to the
output. -/
theorem run_succeeds_or_fails_cleanly (files : Surroundings) (data : Bytes) (terminal : Bool)
    (revision : Option String) (args : List Bytes) :
    let r := run { files, input := { data }, output := .unlimited, terminal, revision } args
    ((r.exitCode = 0 ∧ ∀ detailed, r.complaint detailed = "") ∨
      (r.exitCode = 1 ∧ r.output = [] ∧ ∀ detailed, r.complaint detailed ≠ "")) ∧
    (∀ f, r.ending = .error f → ∀ c : Console, c.files = files →
      (run c args).output = [] ∧ (run c args).ending = .error f) ∧
    (∀ other : Bytes,
      (run { files, input := { data := other }, output := .unlimited, terminal, revision }
        args).ending = r.ending) ∧
    ∀ text, Command.ofArguments args = .error (.ofComplaint (.usage text)) →
      r.exitCode = 1 ∧ r.output = [] ∧ ∀ detailed, r.complaint detailed = text ++ "\n" := by
  intro r
  cases h : planOf files terminal revision args with
  | ok plan =>
    have hother (other : Bytes) := (run_of_planOf_ok h other).2
    have hr : r.ending = .ok () := hother data
    clear_value r
    refine ⟨.inl ⟨Run.exitCode_of_ok hr, Run.complaint_of_ok hr⟩, ?_, ?_, ?_⟩
    · intro f hf
      rw [hr] at hf
      cases hf
    · intro other
      rw [hother, hr]
    · intro text htext
      rw [planOf, htext] at h
      cases h
  | error f =>
    have hother (c : Console) (hc : c.files = files) :
        (run c args).output = [] ∧ (run c args).ending = .error f :=
      run_of_planOf_error (hc ▸ planOf_error_of_files h)
    have hr : r.output = [] ∧ r.ending = .error f := hother _ rfl
    clear_value r
    refine ⟨.inr ⟨Run.exitCode_of_error hr.2, hr.1, Run.complaint_ne_empty hr.2⟩, ?_, ?_, ?_⟩
    · intro g hg
      rw [hr.2, Except.error.injEq] at hg
      rw [← hg]
      exact hother
    · intro other
      rw [hr.2]
      exact (hother { files, input := { data := other }, output := .unlimited, terminal, revision }
        rfl).2
    · intro text htext
      rw [planOf, htext] at h
      cases h
      exact ⟨Run.exitCode_of_error hr.2, hr.1, Run.complaint_of_cause hr.2⟩

/-- What a run works with in a tree of files without any, on an input that is empty. -/
def emptyConsole (output : Sink) : Console where
  files := Workplace.surroundings { tree := .directory [], current := [] }
  input := { data := [] }
  output := output

theorem exists_emptyConsole_eq :
    ∃ files, ∀ output, emptyConsole output =
      { files, input := { data := [] }, output, terminal := false } :=
  ⟨_, fun _ => rfl⟩

/-- A run without arguments tells how the program is used, and writes nothing, not even where
nothing could be written. -/
theorem run_without_arguments :
    Command.ofArguments [] = .error (.ofComplaint (.usage (Text.trimmed Help.program))) ∧
      (run (emptyConsole .unlimited) []).complaint false = Text.trimmed Help.program ++ "\n" ∧
      (run (emptyConsole (.bytes 0 .brokenPipe)) []).output = [] := by
  obtain ⟨files, hconsole⟩ := exists_emptyConsole_eq
  have husage : Command.ofArguments [] =
      .error (.ofComplaint (.usage (Text.trimmed Help.program))) := rfl
  have hending : (run { files, input := { data := [] }, output := .unlimited, terminal := false }
      []).ending = .error (.ofComplaint (.usage (Text.trimmed Help.program))) :=
    (run_of_planOf_error (by rw [planOf, husage]; rfl)).2
  obtain ⟨-, hcut, -, hhelp⟩ := run_succeeds_or_fails_cleanly files [] false none []
  rw [hconsole, hconsole]
  exact ⟨husage, (hhelp _ husage).2.2 false, (hcut _ hending _ rfl).1⟩

end Program

end CompileFlags
