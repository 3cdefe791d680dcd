import CompileFlags.Proofs.PrintedFlags
import CompileFlags.Proofs.RepliesReadBack
import CompileFlags.Proofs.SaidOptions

/-!
# The two layouts of an answer

The flags of a file are written as an object, in which they are quoted, or as lines, in which they
are not. Who reads the object gets the flags. Who cuts the lines gets them too, unless one of them
holds a newline: the lines of such a flag look like flags of their own.

* `Answer.listed?_written` — what is read from the object.
* `cutLines?_flatMap` — what the lines are cut into; `cutTexts_eq_iff` — when these are the flags.
* `Program.layouts_agree_iff` — what is printed in the two layouts, on the same files.
-/

namespace CompileFlags

open Json (Outline)

/-! ## The object -/

/-- The flags in what was printed as an object. -/
def listed? (output : Bytes) : Option (List String) :=
  (Outline.ofBytes? output).bind fun o => (o.member? "flags").bind Outline.texts?

theorem Answer.listed?_written (a : Answer) :
    listed? (Utf8.encode (a.written ++ "\n")) = some a.flags := by
  have hread := Json.ofBytes?_line_of_reads a.reads_written
  rw [String.ofList_toList] at hread
  rw [listed?, hread, Option.bind_some, a.member?_flags, Option.bind_some, Outline.texts?_ofTexts]

/-! ## The lines -/

/-- The lines of what was printed as lines. -/
def cutLines? (output : Bytes) : Option (List String) :=
  (Utf8.decode output).toOption.map fun text =>
    (terminatedPieces (· == '\n') text.toList).map .ofList

/-- The pieces of texts between the newlines that they hold. -/
def cutTexts (texts : List String) : List String :=
  ((texts.map String.toList).flatMap (pieces (· == '\n'))).map .ofList

/-- Lines are cut at their ends, and wherever else they hold a newline. -/
theorem cutLines?_flatMap (lines : List String) :
    cutLines? (lines.flatMap fun line => Utf8.encode (line ++ "\n")) = some (cutTexts lines) := by
  have hline (line : String) : Utf8.encode (line ++ "\n") =
      (line.toList ++ ['\n']).flatMap Utf8.encodeChar := by
    rw [Utf8.encode, String.toList_append]
    rfl
  have htext : (lines.flatMap fun line => Utf8.encode (line ++ "\n")) =
      Utf8.encode (.ofList ((lines.map String.toList).flatMap fun line => line ++ ['\n'])) := by
    rw [Utf8.encode, String.toList_ofList, Utf8.encodeChars, List.flatMap_assoc, List.flatMap_map,
      funext hline]
  rw [cutLines?, htext, Utf8.decode_encode, Except.toOption, Option.map_some, String.toList_ofList,
    terminatedPieces_flatMap (by decide), cutTexts]

/-- Texts are cut no further exactly if none of them holds a newline. -/
theorem cutTexts_eq_iff {texts : List String} :
    cutTexts texts = texts ↔ ∀ text ∈ texts, '\n' ∉ text.toList := by
  have hlists : cutTexts texts = texts ↔
      (texts.map String.toList).flatMap (pieces (· == '\n')) = texts.map String.toList := by
    constructor
    · intro h
      have hmap := congrArg (List.map String.toList) h
      rwa [cutTexts, List.map_map, show String.toList ∘ String.ofList = id from
        funext fun cs => String.toList_ofList, List.map_id] at hmap
    · intro h
      rw [cutTexts, h, List.map_map, show String.ofList ∘ String.toList = id from
        funext fun s => String.ofList_toList, List.map_id]
  rw [hlists, flatMap_pieces_eq_iff, List.forall_mem_map]
  exact forall₂_congr fun text _ => forall_beq_eq_false_iff

/-! ## What is printed -/

namespace Program

variable {files : Surroundings} {terminal : Bool} {revision : Option String}

/-- What is to be done with the flags of a file is to write them in their layout. -/
theorem planOf_flags {args : List Bytes} {file : String} {o : CommandLine.FlagsOptions}
    (h : Command.ofArguments args = .ok (.ofFlags file o)) :
    planOf files terminal revision args =
      (Loading.load files ⟨Loading.directoryOf file, o.catalog, o.root⟩).result.map fun p =>
        .lines (answerLines o.layout (p.answer (requestOf file o.noCache))) :=
  planOf_onProject h

/-- **The two layouts tell the same flags unless one of them holds a newline.** Take arguments that
ask for the flags of a file as an object, and others that ask for the same as lines. Both runs end
with the same exit code. If they end well, there is a project whose flags are read back from what
the first one writes, and are written by the second one, each with a newline behind it. Cut at the
newlines, these lines are the flags exactly if no flag holds a newline itself. -/
theorem layouts_agree_iff (files : Surroundings) (data : Bytes) (terminal : Bool)
    (revision : Option String) {file : String}
    {o : CommandLine.FlagsOptions} {objectArgs lineArgs : List Bytes}
    (hobject : Command.ofArguments objectArgs = .ok (.ofFlags file { o with layout := .json }))
    (hlines : Command.ofArguments lineArgs = .ok (.ofFlags file { o with layout := .lines })) :
    let object := run { files, input := { data }, output := .unlimited, terminal, revision }
      objectArgs
    let lines := run { files, input := { data }, output := .unlimited, terminal, revision } lineArgs
    object.exitCode = lines.exitCode ∧
    (object.exitCode = 0 → ∃ p,
      (Loading.load files ⟨Loading.directoryOf file, o.catalog, o.root⟩).result = .ok p ∧
      let flags := (p.answer (requestOf file o.noCache)).flags
      listed? object.output = some flags ∧
      lines.output = (flags.flatMap fun flag => Utf8.encode (flag ++ "\n")) ∧
      ∃ cut, cutLines? lines.output = some cut ∧
        (cut = flags ↔ ∀ flag ∈ flags, '\n' ∉ flag.toList)) := by
  intro object lines
  cases hload : (Loading.load files ⟨Loading.directoryOf file, o.catalog, o.root⟩).result with
  | error f =>
    have hplan {args : List Bytes} {l : Layout}
        (h : Command.ofArguments args = .ok (.ofFlags file { o with layout := l })) :
        planOf files terminal revision args = .error f := by
      rw [planOf_flags h, hload]
      rfl
    have hobjectFails : object.exitCode = 1 := exitCode_of_planOf_error (hplan hobject)
    have hlinesFails : lines.exitCode = 1 := exitCode_of_planOf_error (hplan hlines)
    refine ⟨hobjectFails.trans hlinesFails.symm, fun h => ?_⟩
    rw [hobjectFails] at h
    cases h
  | ok p =>
    have hplan {args : List Bytes} {l : Layout}
        (h : Command.ofArguments args = .ok (.ofFlags file { o with layout := l })) :
        planOf files terminal revision args =
          .ok (.lines (answerLines l (p.answer (requestOf file o.noCache)))) := by
      rw [planOf_flags h, hload]
      rfl
    have hobjectPrints : object.Prints [(p.answer (requestOf file o.noCache)).written] :=
      prints_of_planOf (hplan hobject) data
    have hlinesPrints : lines.Prints (p.answer (requestOf file o.noCache)).flags :=
      prints_of_planOf (hplan hlines) data
    clear_value object lines
    refine ⟨hobjectPrints.exitCode.trans hlinesPrints.exitCode.symm, fun _ => ⟨p, rfl, ?_⟩⟩
    refine ⟨?_, hlinesPrints.output, _, ?_, cutTexts_eq_iff⟩
    · rw [hobjectPrints.output, List.flatMap_singleton]
      exact Answer.listed?_written _
    · rw [hlinesPrints.output]
      exact cutLines?_flatMap _

/-- The arguments for the flags of a file under a root with a newline in its name. -/
def brokenRootArguments (layout : String) : List Bytes :=
  ["flags", "-f", layout, "-r", "/a\nb", "x.c"].map Utf8.encode

theorem ofArguments_brokenRootArguments {name : String} {l : Layout}
    (h : Layout.ofName name = .ok l) :
    Command.ofArguments (brokenRootArguments name) =
      .ok (.ofFlags "x.c" { root := some (.ofString "/a\nb"), layout := l }) := by
  have hsaid : List.Forall₂ CommandLine.FlagsSays
      [.layout l, .root (.ofBytes (Utf8.encode "/a\nb"))] _ :=
    .cons (.layout h (.letter rfl)) (.cons (.project (.root (.letter rfl))) .nil)
  have hcommand : CommandLine.flagsCommand
      ⟨false, ["-f", name, "-r", "/a\nb", "x.c"].map Utf8.encode⟩ =
        .ok ("x.c", { root := some (.ofString "/a\nb"), layout := l }) :=
    CommandLine.flagsCommand_parts hsaid .nil (.inr (by decide))
  rw [Command.ofArguments, brokenRootArguments, List.map_cons, CommandLine.commandOf_name rfl]
  show (CommandLine.flagsCommand _).map _ = _
  rw [hcommand]
  rfl

/-- The flags of the built-in catalog hold a newline if the root does, so cutting the lines gives
more than the flags that are listed in the object. -/
theorem layouts_differ_under_broken_root :
    (Command.ofArguments (brokenRootArguments "json") =
        .ok (.ofFlags "x.c" { root := some (.ofString "/a\nb"), layout := .json }) ∧
      Command.ofArguments (brokenRootArguments "lines") =
        .ok (.ofFlags "x.c" { root := some (.ofString "/a\nb"), layout := .lines })) ∧
    (run (emptyConsole .unlimited) (brokenRootArguments "json")).exitCode = 0 ∧
    listed? (run (emptyConsole .unlimited) (brokenRootArguments "json")).output ≠
      cutLines? (run (emptyConsole .unlimited) (brokenRootArguments "lines")).output := by
  have hobject : Command.ofArguments (brokenRootArguments "json") =
      .ok (.ofFlags "x.c" { root := some (.ofString "/a\nb"), layout := .json }) :=
    ofArguments_brokenRootArguments rfl
  have hlines : Command.ofArguments (brokenRootArguments "lines") =
      .ok (.ofFlags "x.c" { root := some (.ofString "/a\nb"), layout := .lines }) :=
    ofArguments_brokenRootArguments rfl
  have hloaded : (Loading.load (emptyConsole .unlimited).files
      ⟨Loading.directoryOf "x.c", none, some (.ofString "/a\nb")⟩).result.toOption.map
        (fun p => (p.answer (requestOf "x.c" false)).flags.any (·.toList.contains '\n')) =
      some true := by
    decide +kernel
  obtain ⟨files, hconsole⟩ := exists_emptyConsole_eq
  rw [hconsole] at hloaded ⊢
  obtain ⟨p, hp, hany⟩ := Option.map_eq_some_iff.1 hloaded
  have hload := toOption_eq_some_iff.1 hp
  have hplan : planOf files false none (brokenRootArguments "json") =
      .ok (.lines [(p.answer (requestOf "x.c" false)).written]) := by
    rw [planOf_flags hobject, hload]
    rfl
  have hzero := (prints_of_planOf hplan []).exitCode
  obtain ⟨-, hread⟩ := layouts_agree_iff (o := { root := some (.ofString "/a\nb") }) files [] false
    none hobject hlines
  obtain ⟨q, hq, hlisted, -, cut, hcut, hiff⟩ := hread hzero
  rw [hload] at hq
  cases hq
  refine ⟨⟨hobject, hlines⟩, hzero, ?_⟩
  rw [hlisted, hcut]
  intro h
  obtain ⟨flag, hflag, hnewline⟩ := List.any_eq_true.1 hany
  exact hiff.1 (Option.some.inj h).symm flag hflag (List.contains_iff_mem.1 hnewline)

end Program

end CompileFlags
