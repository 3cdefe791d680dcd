import CompileFlags.Proofs.BrokenSession
import CompileFlags.Proofs.Plans
import CompileFlags.Proofs.ReadArguments
import CompileFlags.Proofs.Results

/-!
# Runs on an output that nobody reads any more

A run that ends well on an output that works writes the same on one that fails, as far as this takes
it. If nobody reads the output any more, nothing is said about that, but for the table, which is
written in one piece.

* `Plan.carryOut_bytes` — what a plan comes to on an output that takes so many bytes.
* `Row.table_ne_empty` — there is always something of a table to write.
* `Program.run_on_a_closed_output` — what a run comes to whose output nobody reads.
-/

namespace CompileFlags

/-! ## The table is never empty -/

namespace Table

theorem length_neededBelow (lines : List (List Nat)) :
    (neededBelow lines).length = lines.length := by
  induction lines with
  | nil => rfl
  | cons ws rest ih => rw [neededBelow, List.length_cons, ih, List.length_cons]

theorem length_passDown (above : List Nat) (lines : List (List Nat)) :
    (passDown above lines).length = lines.length := by
  induction lines generalizing above with
  | nil => rfl
  | cons ws rest ih => rw [passDown, List.length_cons, ih, List.length_cons]

/-- Every line has its widths. -/
theorem length_columnWidths (lines : List (List (List Char))) :
    (columnWidths lines).length = lines.length := by
  rw [columnWidths, length_passDown, length_neededBelow, List.length_map]

/-- A text with a newline has two lines at least, and the newline between them stays. -/
theorem align_ne_nil {text : List Char} (h : '\n' ∈ text) : align text ≠ [] := by
  obtain ⟨before, after, rfl⟩ := List.append_of_mem h
  have hlines : 2 ≤ (cells (before ++ '\n' :: after)).length := by
    rw [cells, List.length_map, pieces_append_cons (by decide), List.length_append]
    have hbefore := List.length_pos_of_ne_nil (pieces_ne_nil (· == '\n') before)
    have hafter := List.length_pos_of_ne_nil (pieces_ne_nil (· == '\n') after)
    omega
  apply List.ne_nil_of_length_pos
  rw [align, length_joinPieces, List.length_zipWith, length_columnWidths]
  omega

end Table

theorem Row.table_ne_empty (colored : Bool) (rows : List Row) : table colored rows ≠ "" := by
  have hheader : '\n' ∈ Style.label.apply colored header := by
    cases colored <;> decide
  have hlaid := Table.align_ne_nil (List.mem_append_left (rows.flatMap (line colored)) hheader)
  rw [table, ne_eq, ← String.toList_inj, String.toList_ofList]
  exact hlaid

/-! ## Plans on an output with room for so many bytes -/

namespace Sink

theorem put_bytes_of_le {bs : Bytes} {n : Nat} {e : IoError} (h : bs.length ≤ n) :
    (bytes n e).put bs = ⟨bs, none, bytes (n - bs.length) e⟩ := if_pos h

theorem put_bytes_of_lt {bs : Bytes} {n : Nat} {e : IoError} (h : n < bs.length) :
    (bytes n e).put bs = ⟨bs.take n, some e, bytes 0 e⟩ := if_neg (by omega)

end Sink

namespace Run

/-- The first bytes of the lines are taken, and the line in which the room ends decides. -/
theorem ofLines_bytes (lines : List String) (n : Nat) (e : IoError) :
    ofLines lines (.bytes n e) =
      { output := (lines.map Sink.lineOf).flatten.take n
        ending := if (lines.map Sink.lineOf).flatten.length ≤ n then .ok ()
          else Sink.verdict .writingOutput e } := by
  induction lines generalizing n with
  | nil => simp [ofLines]
  | cons line rest ih =>
    rw [ofLines, List.map_cons, List.flatten_cons, List.length_append]
    by_cases h : (Sink.lineOf line).length ≤ n
    · have hroom (m : Nat) : (Sink.lineOf line).length + m ≤ n ↔
          m ≤ n - (Sink.lineOf line).length := by omega
      rw [Sink.put_bytes_of_le h, ih, List.take_append, List.take_of_length_le h]
      simp only [after, List.append_nil, hroom]
    · rw [Sink.put_bytes_of_lt (by omega), List.take_append_of_le_length (by omega),
        if_neg (by omega)]

theorem ofText_bytes (text : String) (n : Nat) (e : IoError) :
    ofText text (.bytes n e) =
      { output := (Utf8.encode text).take n
        ending := if (Utf8.encode text).length ≤ n then .ok ()
          else .error (.ofCause (.io e)) } := by
  rw [ofText]
  by_cases h : (Utf8.encode text).length ≤ n
  · rw [Sink.put_bytes_of_le h, if_pos h, List.take_of_length_le h]
  · rw [Sink.put_bytes_of_lt (by omega), if_neg h]

end Run

namespace Plan

/-- How a plan ends that an output cuts: only a line can go unread without harm. -/
def cutEnding (e : IoError) : Plan → Except Fault Unit
  | text _ => .error (.ofCause (.io e))
  | lines _ => Sink.verdict .writingOutput e
  | session _ => Project.outputEnding e

/-- An output with room for so many bytes takes the first ones of what a plan writes. -/
theorem carryOut_bytes (plan : Plan) (data : Bytes) (n : Nat) (e : IoError) :
    (plan.carryOut { data } (.bytes n e)).output = (plan.written data).take n ∧
      (plan.carryOut { data } (.bytes n e)).ending =
        if (plan.written data).length ≤ n then .ok () else plan.cutEnding e := by
  cases plan with
  | text content =>
    rw [carryOut, Run.ofText_bytes]
    exact ⟨rfl, rfl⟩
  | lines entries =>
    rw [carryOut, Run.ofLines_bytes]
    exact ⟨rfl, rfl⟩
  | session p =>
    rw [carryOut, Project.output_serve_bytes, Project.ending_serve_bytes, Project.repliesTo_data]
    exact ⟨rfl, rfl⟩

/-- If nobody reads the output any more, only a text is missed. -/
theorem cutEnding_of_isClosed {plan : Plan} {e : IoError} (he : e.isClosed = true)
    (hplan : ∀ content, plan ≠ text content) : plan.cutEnding e = .ok () := by
  cases plan with
  | text content => exact absurd rfl (hplan content)
  | lines entries => exact if_pos he
  | session p => exact if_pos he

end Plan

/-! ## Runs -/

/-- Whether a command writes the table of flags. -/
def Command.writesTable : Command → Bool
  | onProject _ (.table _ _) => true
  | _ => false

namespace Program

variable {files : Surroundings} {terminal : Bool} {revision : Option String} {plan : Plan}

/-- The command that writes the table plans a text, and no other does. -/
theorem text_iff_writesTable {command : Command}
    (h : planOfCommand files terminal revision command = .ok plan) :
    if command.writesTable then ∃ colored rows, plan = .text (Row.table colored rows)
    else ∀ content, plan ≠ .text content := by
  cases command with
  | onProject l task =>
    obtain ⟨p, -, rfl⟩ := exists_of_map_eq_ok h
    cases task with
    | table color filter => exact ⟨_, _, rfl⟩
    | classify file => exact fun content => Plan.noConfusion
    | flags file layout noCache => exact fun content => Plan.noConfusion
    | serve => exact fun content => Plan.noConfusion
  | normalize o =>
    obtain ⟨root, -, rfl⟩ := exists_of_map_eq_ok h
    exact fun content => Plan.noConfusion
  | version =>
    cases h
    exact fun content => Plan.noConfusion

/-- A run with a plan comes to what the plan does on an output with room for so many bytes. -/
theorem run_bytes_of_planOf_ok {args : List Bytes}
    (h : planOf files terminal revision args = .ok plan) (data : Bytes) (n : Nat)
    (e : IoError) :
    (run { files, input := { data }, output := .bytes n e, terminal, revision } args).output =
        (plan.written data).take n ∧
      (run { files, input := { data }, output := .bytes n e, terminal, revision } args).ending =
        if (plan.written data).length ≤ n then .ok () else plan.cutEnding e := by
  rw [output_run, ending_run, h]
  exact plan.carryOut_bytes data n e

/-- **On an output that nobody reads any more, all commands but one are quiet.** Take a run that
ends well on an output that works. On an output that fails after some bytes because nobody reads it
any more, the run writes these bytes of the same output. If its command does not write the table, it
ends well and without a complaint. The table is never empty; if it is cut, even if nothing of it was
taken, the run fails and complains about the output. -/
theorem run_on_a_closed_output (files : Surroundings) (data : Bytes) (terminal : Bool)
    (revision : Option String) (args : List Bytes) {e : IoError} (he : e.isClosed = true)
    (hfull : (run { files, input := { data }, output := .unlimited, terminal, revision }
      args).exitCode = 0) :
    let full := run { files, input := { data }, output := .unlimited, terminal, revision } args
    ∃ command, Command.ofArguments args = .ok command ∧
      ∀ n,
        let cut := run { files, input := { data }, output := .bytes n e, terminal, revision } args
        cut.output = full.output.take n ∧
        (command.writesTable = false →
          cut.exitCode = 0 ∧ ∀ detailed, cut.complaint detailed = "") ∧
        (command.writesTable = true →
          full.output ≠ [] ∧
          (full.output.length ≤ n →
            cut.exitCode = 0 ∧ ∀ detailed, cut.complaint detailed = "") ∧
          (n < full.output.length →
            cut.exitCode = 1 ∧ ∀ detailed, cut.complaint detailed = e.message ++ "\n")) := by
  intro full
  obtain ⟨plan, h⟩ := exists_planOf (Run.ok_of_exitCode hfull)
  obtain ⟨command, hcommand, hplan⟩ := exists_of_bind_eq_ok h
  have htext := text_iff_writesTable hplan
  have houtput : full.output = plan.written data := (run_of_planOf_ok h data).1
  refine ⟨command, hcommand, ?_⟩
  intro n cut
  have hcut : cut.output = (plan.written data).take n ∧
      cut.ending = if (plan.written data).length ≤ n then .ok () else plan.cutEnding e :=
    run_bytes_of_planOf_ok h data n e
  clear_value full cut
  rw [houtput]
  refine ⟨hcut.1, ?_, ?_⟩
  · intro hquiet
    rw [hquiet] at htext
    have hending : cut.ending = .ok () := by
      rw [hcut.2, Plan.cutEnding_of_isClosed he htext, ite_self]
    exact ⟨Run.exitCode_of_ok hending, Run.complaint_of_ok hending⟩
  · intro htable
    rw [htable] at htext
    obtain ⟨colored, rows, rfl⟩ := htext
    refine ⟨Utf8.encode_ne_nil (Row.table_ne_empty colored rows), ?_, ?_⟩
    · intro hn
      have hending : cut.ending = .ok () := by rw [hcut.2, if_pos hn]
      exact ⟨Run.exitCode_of_ok hending, Run.complaint_of_ok hending⟩
    · intro hn
      have hending : cut.ending = .error (.ofCause (.io e)) := by
        rw [hcut.2, if_neg (Nat.not_le.2 hn)]
        rfl
      exact ⟨Run.exitCode_of_error hending, Run.complaint_of_cause hending⟩

/-- The version is written as a line, so nobody has to read it. -/
theorem version_on_a_closed_output :
    IoError.brokenPipe.isClosed = true ∧
      (run (emptyConsole .unlimited) [Utf8.encode "version"]).exitCode = 0 ∧
      (run (emptyConsole (.bytes 0 .brokenPipe)) [Utf8.encode "version"]).exitCode = 0 ∧
      (run (emptyConsole (.bytes 0 .brokenPipe)) [Utf8.encode "version"]).complaint false = "" := by
  obtain ⟨files, hconsole⟩ := exists_emptyConsole_eq
  have hclosed : IoError.brokenPipe.isClosed = true := rfl
  have hversion : Command.ofArguments [Utf8.encode "version"] = .ok .version := by
    rw [Command.ofArguments, CommandLine.commandOf_name rfl]
    rfl
  have hplan : planOf files false none [Utf8.encode "version"] = .ok (.lines [version none]) := by
    rw [planOf, hversion]
    rfl
  have hfull := Run.exitCode_of_ok (run_of_planOf_ok hplan []).2
  obtain ⟨command, hcommand, h⟩ := run_on_a_closed_output files [] false none _ hclosed hfull
  rw [hversion, Except.ok.injEq] at hcommand
  obtain ⟨hcode, hcomplaint⟩ := (h 0).2.1 (hcommand ▸ rfl)
  rw [hconsole, hconsole]
  exact ⟨hclosed, hfull, hcode, hcomplaint false⟩

/-- The run for the table of the built-in catalog. -/
theorem exists_planOf_table :
    ∃ rows, planOf (emptyConsole .unlimited).files false none [Utf8.encode "catalog"] =
      .ok (.text (Row.table false rows)) := by
  have hcommand : Command.ofArguments [Utf8.encode "catalog"] =
      .ok (.onProject ⟨Loading.here, none, none⟩ (.table .auto {})) := by
    rw [Command.ofArguments, CommandLine.commandOf_name rfl]
    rfl
  have hloaded : (Loading.load (emptyConsole .unlimited).files
      ⟨Loading.here, none, none⟩).result.toOption.isSome = true := by
    decide +kernel
  obtain ⟨p, hp⟩ := Option.isSome_iff_exists.1 hloaded
  refine ⟨p.rows.filter fun row => Filter.accepts {} row.written, ?_⟩
  rw [planOf_onProject hcommand, toOption_eq_some_iff.1 hp]
  rfl

/-- **The table is not quiet.** The run ends well on an output that works, and it fails if nobody
reads its output. -/
theorem table_on_a_closed_output :
    (run (emptyConsole .unlimited) [Utf8.encode "catalog"]).exitCode = 0 ∧
      (run (emptyConsole (.bytes 0 .brokenPipe)) [Utf8.encode "catalog"]).exitCode = 1 ∧
      (run (emptyConsole (.bytes 0 .brokenPipe)) [Utf8.encode "catalog"]).complaint false =
        "Broken pipe (os error 32)\n" := by
  obtain ⟨rows, hplan⟩ := exists_planOf_table
  have hfull : (run (emptyConsole .unlimited) [Utf8.encode "catalog"]).ending = .ok () :=
    (run_of_planOf_ok hplan []).2
  have hcut : (run (emptyConsole (.bytes 0 .brokenPipe)) [Utf8.encode "catalog"]).ending =
      .error (.ofCause (.io .brokenPipe)) := by
    have htable := List.length_pos_of_ne_nil (Utf8.encode_ne_nil (Row.table_ne_empty false rows))
    exact (run_bytes_of_planOf_ok hplan [] 0 .brokenPipe).2.trans (if_neg (Nat.not_le.2 htable))
  exact ⟨Run.exitCode_of_ok hfull, Run.exitCode_of_error hcut, Run.complaint_of_cause hcut false⟩

end Program

end CompileFlags
