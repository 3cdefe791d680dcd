import CompileFlags.Proofs.Absorption
import CompileFlags.Proofs.Discovery
import CompileFlags.Proofs.Plans
import CompileFlags.Proofs.ReadArguments

/-!
# Flags that are printed with their paths resolved

Behind two hyphens the command line holds flags and nothing else, whatever they look like. Each of
them comes out as one line, in order, as normalization leaves it under the root that was asked for.

* `CommandLine.readOperands_encode` — flags that are texts are all taken as they are.
* `CommandLine.readOperands_of_not_isText` — the first that is no text ends the reading.
* `Command.ofArguments_normalize` — what the arguments ask for.
* `Program.run_prints_normalized` — what the run prints.
-/

namespace CompileFlags

open CompileFlags.Path (IsText)

namespace CommandLine

/-! ## Arguments -/

/-- What the arguments say about the root that flags are resolved against. -/
inductive RootChoice where
  /-- The root is a directory. -/
  | directory (dir : Bytes)
  /-- There is no root, so paths stay as they are. -/
  | nowhere
  /-- Nothing is said about the root. -/
  | unsaid

namespace RootChoice

/-- The options that make a choice. -/
def arguments : RootChoice → List Bytes
  | directory dir => [Utf8.encode "-r", dir]
  | nowhere => [Utf8.encode "--no-root"]
  | unsaid => []

/-- What a choice and some flags come to. -/
def options (flags : List String) : RootChoice → NormalizeOptions
  | directory dir => { root := some (.ofBytes dir), flags }
  | nowhere => { noRoot := true, flags }
  | unsaid => { flags }

end RootChoice

/-- The arguments that ask for flags with their paths resolved. -/
def normalizeArguments (choice : RootChoice) (flags : List Bytes) : List Bytes :=
  Utf8.encode "normalize" :: (choice.arguments ++ Utf8.encode "--" :: flags)

theorem textOf_of_not_isText {arg : Bytes} (h : ¬IsText arg) :
    textOf arg = refused (.notText arg) := by
  rw [textOf]
  cases hd : Utf8.decode arg with
  | ok text => exact absurd ⟨text, Utf8.decode_eq_ok_iff.1 hd⟩ h
  | error e => rfl

/-- The first operand is read, and then the others. -/
theorem readOperands_cons (arg : Bytes) (rest : List Bytes) (o : NormalizeOptions) :
    normalizeGrammar.readOperands (arg :: rest) o =
      (textOf arg).bind fun flag =>
        normalizeGrammar.readOperands rest { o with flags := o.flags ++ [flag] } := by
  rw [Grammar.readOperands, List.foldlM_cons]
  show Except.bind ((textOf arg).map _) _ = _
  cases textOf arg <;> rfl

/-- Flags that are texts are all taken as they are. -/
theorem readOperands_encode (flags : List String) (o : NormalizeOptions) :
    normalizeGrammar.readOperands (flags.map Utf8.encode) o =
      .ok { o with flags := o.flags ++ flags } := by
  induction flags generalizing o with
  | nil =>
    rw [List.append_nil]
    rfl
  | cons flag rest ih =>
    rw [List.map_cons, readOperands_cons, textOf_encode]
    show normalizeGrammar.readOperands (rest.map Utf8.encode) _ = _
    rw [ih, List.append_assoc, List.singleton_append]

/-- The first flag that is no text ends the reading. -/
theorem readOperands_of_not_isText {flags : List Bytes} (h : ∃ flag ∈ flags, ¬IsText flag)
    (o : NormalizeOptions) :
    ∃ flag ∈ flags, ¬IsText flag ∧
      normalizeGrammar.readOperands flags o = refused (.notText flag) := by
  induction flags generalizing o with
  | nil =>
    obtain ⟨flag, hflag, -⟩ := h
    cases hflag
  | cons first rest ih =>
    rw [readOperands_cons]
    by_cases hfirst : IsText first
    · obtain ⟨text, rfl⟩ := hfirst
      have hrest : ∃ flag ∈ rest, ¬IsText flag := by
        obtain ⟨flag, hflag, hnot⟩ := h
        rcases List.mem_cons.1 hflag with rfl | hflag
        · exact absurd ⟨text, rfl⟩ hnot
        · exact ⟨flag, hflag, hnot⟩
      obtain ⟨flag, hflag, hnot, hread⟩ := ih hrest { o with flags := o.flags ++ [text] }
      rw [textOf_encode]
      exact ⟨flag, List.mem_cons_of_mem _ hflag, hnot, hread⟩
    · rw [textOf_of_not_isText hfirst]
      exact ⟨first, List.mem_cons_self, hfirst, rfl⟩

/-- The options make their choice, and then there are only flags. -/
theorem read_rootChoice (choice : RootChoice) (flags : List Bytes) :
    normalizeGrammar.read (choice.arguments ++ Utf8.encode "--" :: flags) {} =
      normalizeGrammar.readOperands flags (choice.options []) := by
  have hseparator : Spelling.of (Utf8.encode "--") = .separator := rfl
  cases choice with
  | directory dir =>
    have hread := read_given (g := normalizeGrammar) (fun p o => { o with root := some p })
      spelling_r rfl (some dir) (Utf8.encode "--" :: flags) {}
    exact hread.trans (Grammar.read_separator hseparator _ _)
  | nowhere =>
    have hlong : Spelling.of (Utf8.encode "--no-root") = .long (Utf8.encode "no-root") none := rfl
    exact (Grammar.read_switch (fun o : NormalizeOptions => { o with noRoot := true }) hlong rfl _
      _).trans (Grammar.read_separator hseparator _ _)
  | unsaid => exact Grammar.read_separator hseparator _ _

theorem normalizeCommand_rootChoice (choice : RootChoice) (flags : List Bytes) :
    normalizeCommand ⟨false, choice.arguments ++ Utf8.encode "--" :: flags⟩ =
      (normalizeGrammar.readOperands flags (choice.options [])).bind fun o =>
        if o.noRoot && o.root.isSome then .error (.ofComplaint .rootAndNoRoot) else .ok o := by
  rw [normalizeCommand, Grammar.readArguments, if_neg Bool.false_ne_true, read_rootChoice]
  rfl

end CommandLine

open CommandLine

namespace Command

/-- What the arguments for flags ask for. No flag is taken for anything else. -/
theorem ofArguments_normalize (choice : RootChoice) (flags : List String) :
    ofArguments (normalizeArguments choice (flags.map Utf8.encode)) =
      .ok (.normalize (choice.options flags)) := by
  rw [ofArguments, normalizeArguments, commandOf_name rfl]
  show (normalizeCommand _).map _ = _
  rw [normalizeCommand_rootChoice, readOperands_encode]
  cases choice <;> rfl

/-- Arguments with a flag that is no text ask for nothing. -/
theorem ofArguments_normalize_of_not_isText (choice : RootChoice) {flags : List Bytes}
    (h : ∃ flag ∈ flags, ¬IsText flag) :
    ∃ flag ∈ flags, ¬IsText flag ∧
      ofArguments (normalizeArguments choice flags) =
        .error (.ofCause (.arguments (.notText flag))) := by
  obtain ⟨flag, hflag, hnot, hread⟩ := readOperands_of_not_isText h (choice.options [])
  refine ⟨flag, hflag, hnot, ?_⟩
  rw [ofArguments, normalizeArguments, commandOf_name rfl]
  show (normalizeCommand _).map _ = _
  rw [normalizeCommand_rootChoice, hread]
  rfl

end Command

/-! ## Runs -/

/-- A run that wrote lines, each with a newline behind it, and nothing went wrong. -/
structure Run.Prints (r : Run) (lines : List String) : Prop where
  exitCode : r.exitCode = 0
  complaint : ∀ detailed, r.complaint detailed = ""
  output : r.output = lines.flatMap fun line => Utf8.encode (line ++ "\n")

namespace Program

variable {files : Surroundings} {terminal : Bool} {revision : Option String}

/-- A run whose plan is to write lines prints them. -/
theorem prints_of_planOf {args : List Bytes} {lines : List String}
    (h : planOf files terminal revision args = .ok (.lines lines)) (data : Bytes) :
    (run { files, input := { data }, output := .unlimited, terminal, revision } args).Prints
      lines := by
  obtain ⟨houtput, hending⟩ := run_of_planOf_ok h data
  refine ⟨Run.exitCode_of_ok hending, Run.complaint_of_ok hending, ?_⟩
  have hline (line : String) : Sink.lineOf line = Utf8.encode (line ++ "\n") := by
    rw [Sink.lineOf, Utf8.encode_append]
    rfl
  rw [houtput, Plan.written, List.flatMap, ← funext hline]

/-- What is to be done with flags is to write them, resolved under the root that was chosen. -/
theorem planOf_normalize (choice : RootChoice) {flags : List String} {root : Option Root}
    (h : rootOf files (choice.options flags) = .ok root) :
    planOf files terminal revision (normalizeArguments choice (flags.map Utf8.encode)) =
      .ok (.lines (normalize (choice.options flags).flags root)) := by
  rw [planOf, Command.ofArguments_normalize]
  show (rootOf files _).map _ = _
  rw [h]
  rfl

/-- In a current directory whose path is a text, every directory whose path is a text is a root. -/
theorem exists_ofDirectory_of_isText {here p : Path} (hhere : files.currentDirectory = .ok here)
    (habs : here.isAbsolute = true) (htext : IsText here.bytes) (hp : IsText p.bytes) :
    ∃ r, Root.ofDirectory files p = .ok r ∧ r.IsDirectory (here.join p).names := by
  have habsolute : files.absolute p = .ok (here.join p) := by
    rw [Surroundings.absolute, hhere]
    split
    · rename_i h
      rw [Path.join_of_isAbsolute h]
    · rfl
  exact Root.ofDirectory_of_isText files habsolute (Path.isAbsolute_join habs p)
    ((Path.isText_bytes_iff _).1 (Path.isText_bytes_join htext hp))

/-- A run that cannot read a flag fails before it writes anything, and shows the flag. -/
theorem run_of_not_isText (c : Console) (choice : RootChoice) {flags : List Bytes}
    (h : ∃ flag ∈ flags, ¬IsText flag) :
    (run c (normalizeArguments choice flags)).exitCode = 1 ∧
      (run c (normalizeArguments choice flags)).output = [] ∧
      ∃ flag ∈ flags, ¬IsText flag ∧ ∀ detailed,
        (run c (normalizeArguments choice flags)).complaint detailed =
          (CommandLine.Error.notText flag).message ++ "\n" := by
  obtain ⟨flag, hflag, hnot, hargs⟩ := Command.ofArguments_normalize_of_not_isText choice h
  have hplan : planOf c.files c.terminal c.revision (normalizeArguments choice flags) =
      .error (.ofCause (.arguments (.notText flag))) := by
    rw [planOf, hargs]
    rfl
  obtain ⟨houtput, hending⟩ := run_of_planOf_error hplan
  exact ⟨Run.exitCode_of_error hending, houtput, flag, hflag, hnot,
    Run.complaint_of_cause hending⟩

/-- **A run prints normalized flags.** Flags that are texts are printed one on a line, in order,
whatever they look like: resolved under the root that a directory is, or as they are if there is to
be no root, or else resolved under the current directory. If one of them is no text, the run fails,
prints nothing and shows such a flag. -/
theorem run_prints_normalized {here : Path} (hhere : files.currentDirectory = .ok here)
    (habs : here.isAbsolute = true) (htext : IsText here.bytes) (data : Bytes) (terminal : Bool)
    (revision : Option String) :
    let outcome := fun choice flags =>
      run { files, input := { data }, output := .unlimited, terminal, revision }
        (normalizeArguments choice flags)
    (∀ flags : List String,
      (∀ dir : String, ∃ r, Root.ofDirectory files (.ofString dir) = .ok r ∧
        (outcome (.directory (Utf8.encode dir)) (flags.map Utf8.encode)).Prints
          (normalize flags (some r))) ∧
      (outcome .nowhere (flags.map Utf8.encode)).Prints flags ∧
      ∃ r, Root.ofDirectory files (.ofString ".") = .ok r ∧ r.IsDirectory here.components ∧
        (outcome .unsaid (flags.map Utf8.encode)).Prints (normalize flags (some r))) ∧
    ∀ (choice : RootChoice) (flags : List Bytes), (∃ flag ∈ flags, ¬IsText flag) →
      (outcome choice flags).exitCode = 1 ∧ (outcome choice flags).output = [] ∧
        ∃ flag ∈ flags, ¬IsText flag ∧ ∀ detailed,
          (outcome choice flags).complaint detailed =
            (CommandLine.Error.notText flag).message ++ "\n" := by
  intro outcome
  have hroots (p : Path) := exists_ofDirectory_of_isText (p := p) hhere habs htext
  refine ⟨fun flags => ⟨?_, ?_, ?_⟩, fun choice flags h => run_of_not_isText _ choice h⟩
  · intro dir
    obtain ⟨r, hr, -⟩ := hroots (.ofString dir) (Path.isText_ofString dir)
    have hroot : rootOf files (RootChoice.options flags (.directory (Utf8.encode dir))) =
        .ok (some r) := by
      show (Root.ofDirectory files (.ofString dir)).map some = _
      rw [hr]
      rfl
    exact ⟨r, hr, prints_of_planOf (planOf_normalize _ hroot) data⟩
  · exact prints_of_planOf (planOf_normalize .nowhere rfl) data
  · obtain ⟨r, hr, hdir⟩ := hroots (.ofString ".") (Path.isText_ofString ".")
    have hroot : rootOf files (RootChoice.options flags .unsaid) = .ok (some r) := by
      show (Root.ofDirectory files (.ofString ".")).map some = _
      rw [hr]
      rfl
    have hnames : (here.join (.ofString ".")).names = here.components := by
      rw [Path.names_join (by rfl), Path.components_eq_names habs]
      exact List.append_nil _
    exact ⟨r, hr, hnames ▸ hdir, prints_of_planOf (planOf_normalize _ hroot) data⟩

/-- Flags that look like options are printed all the same, and two hyphens may be the path of the
flag before them. Where a flag is no text, those before it are not printed, either. -/
theorem run_prints_what_looks_like_options :
    (∃ here, oneDirectory.surroundings.currentDirectory = .ok here ∧ here.isAbsolute = true ∧
      IsText here.bytes) ∧
    (run { files := oneDirectory.surroundings, input := { data := [] }, output := .unlimited }
      (normalizeArguments (.directory (Utf8.encode "q"))
        (["--no-root", "-I", "--"].map Utf8.encode))).Prints ["--no-root", "-I", "/p/q/--"] ∧
    (run { files := oneDirectory.surroundings, input := { data := [] }, output := .unlimited }
      (normalizeArguments .nowhere [Utf8.encode "-h", [0xFF]])).output = [] := by
  have hhere : oneDirectory.surroundings.currentDirectory = .ok (.ofString "/p") := by
    decide +kernel
  have habs : (Path.ofString "/p").isAbsolute = true := rfl
  have htext : IsText (Path.ofString "/p").bytes := Path.isText_ofString "/p"
  obtain ⟨hprints, hfails⟩ := run_prints_normalized hhere habs htext [] false none
  obtain ⟨r, hr, hdir⟩ := (hprints ["--no-root", "-I", "--"]).1 "q"
  have hroot : Root.ofDirectory oneDirectory.surroundings (.ofString "q") = .ok ⟨"/p/q"⟩ := by
    decide +kernel
  have hflags : normalize ["--no-root", "-I", "--"] (some ⟨"/p/q"⟩) =
      ["--no-root", "-I", "/p/q/--"] := by
    decide +kernel
  rw [hroot] at hr
  cases hr
  rw [hflags] at hdir
  have hnot : ¬IsText [0xFF] := by decide +kernel
  refine ⟨⟨_, hhere, habs, htext⟩, hdir, (hfails .nowhere _ ⟨[0xFF], ?_, hnot⟩).2.1⟩
  exact List.mem_cons_of_mem _ List.mem_cons_self

end Program

end CompileFlags
