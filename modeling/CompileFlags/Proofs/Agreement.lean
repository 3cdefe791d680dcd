import CompileFlags.Main
import CompileFlags.Proofs.ReadArguments
import CompileFlags.Proofs.RequestShape
import CompileFlags.Proofs.Respelling
import CompileFlags.Proofs.ServedLines

/-!
# One file, two commands

The flags of a file can be asked for on the command line, or in a request on a line of the input.

* `Asks` — a line that holds nothing but a request for the flags of a file.
* `Run.Answers` — what a run comes to that loads a project and answers one request.
* `Program.serve_agrees_with_flags` — both ways end alike and write the same.
* `Program.ways_differ` — a fault can be told with another spelling of the same path, which can also
  be too long.
-/

namespace CompileFlags

open Json (Outline)

/-! ## The request -/

namespace Json

/-- A request for the flags of a file as it is written. -/
def Outline.asking (file : String) (noCache : Bool) : List (String × Outline) :=
  ("filename", .scalar (.text file)) ::
    if noCache then [("options", .object [("cache", .scalar (.boolean false))])] else []

/-- An object is only read where there is a brace. -/
theorem brace_mem_of_outline? {fuel depth : Nat} {i : Input} {ms : List (String × Outline)}
    (h : (value fuel depth i).1.outline? = some (.object ms)) : '{' ∈ i.rest := by
  cases fuel with
  | zero => cases h
  | succ fuel =>
    rw [value] at h
    dsimp only at h
    split at h
    · cases h
    · split at h
      · cases h
      · obtain ⟨items, -, hitems⟩ := Option.map_eq_some_iff.1 h
        cases hitems
    · rename_i hrest
      have hsub : i.skipBlanks.rest ⊆ i.rest := (List.dropWhile_suffix _).subset
      apply hsub
      rw [hrest]
      exact List.mem_cons_self
    · unfold scalarTree at h
      split at h
      · cases h
      · cases h

theorem brace_mem_of_ofText? {text : String} {ms : List (String × Outline)}
    (h : Outline.ofText? text = some (.object ms)) : '{' ∈ text.toList := by
  unfold Outline.ofText? at h
  dsimp only at h
  split at h
  · cases h
  · have hvalue : (value (text.toList.length + 1) maxDepth (Input.ofText text)).1.outline? =
        some (.object ms) := h
    exact brace_mem_of_outline? hvalue

end Json

/-- A line of an input that holds nothing but a request for the flags of a file. -/
structure Asks (text file : String) (noCache : Bool) : Prop where
  outline : Outline.ofText? text = some (.object (Outline.asking file noCache))
  newline_notMem : newline ∉ Utf8.encode text
  return_notMem : 0x0D ∉ Utf8.encode text

namespace Asks

variable {text file : String} {noCache : Bool} (h : Asks text file noCache)
include h

theorem ofText : Request.ofText text = .ok (Program.requestOf file noCache) := by
  rw [← toOption_eq_some_iff, Request.toOption_ofText h.outline]
  cases noCache <;> rfl

theorem not_blank : (Utf8.encode text).all Text.isBlankByte = false := by
  have hbrace : UInt8.ofNat '{'.toNat ∈ Utf8.encode text :=
    (Utf8.ofNat_mem_encode_iff (by decide) text).2 (Json.brace_mem_of_ofText? h.outline)
  rw [List.all_eq_false]
  exact ⟨_, hbrace, by decide⟩

/-- The line is the only request of the input. -/
theorem requestLines_eq : requestLines (Utf8.encode text ++ [newline]) = [Utf8.encode text] := by
  have hpieces : pieces (· == newline) (Utf8.encode text) = [Utf8.encode text] :=
    pieces_of_notMem h.newline_notMem
  have hreturn : withoutReturn (Utf8.encode text) = Utf8.encode text := by
    rw [withoutReturn, if_neg]
    intro hlast
    exact h.return_notMem (List.mem_of_getLast? hlast)
  have hempty : requestLines [] = [] := rfl
  rw [requestLines_append_cons, hempty, requestLines, hpieces, List.map_singleton, hreturn,
    List.filter_cons_of_pos (by rw [h.not_blank]; rfl)]
  rfl

theorem ofLine : Request.ofLine (Utf8.encode text) = .ok (Program.requestOf file noCache) :=
  (Project.ofLine_eq_ok_iff _ _).2 ⟨text, rfl, h.ofText⟩

/-- The session writes the answer to the request on one line. -/
theorem output_serve (p : Project) :
    (p.serve { data := Utf8.encode text ++ [newline] } .unlimited).output =
      Sink.lineOf (p.answer (Program.requestOf file noCache)).written := by
  have hreply : p.reply (Utf8.encode text) = .answer (p.answer (Program.requestOf file noCache)) :=
    (Project.reply_eq_answer_iff p _ _).2 ⟨text, _, rfl, h.ofText, rfl⟩
  rw [Project.output_serve_unlimited, Project.replyLines, h.requestLines_eq, List.map_singleton,
    Project.replyLine, hreply]
  exact List.append_nil _

/-- The session tells the log what answering the request tells. -/
theorem mem_events_serve {p : Project} {e : Event}
    (he : e ∈ (p.serve { data := Utf8.encode text ++ [newline] } .unlimited).events) :
    e ∈ p.answerEvents (Program.requestOf file noCache) := by
  rw [Project.events_serve_unlimited] at he
  obtain ⟨request, hmem, he⟩ := List.mem_flatMap.1 he
  have hline : request.2 ∈ requestLines (Utf8.encode text ++ [newline]) := by
    rw [← requestLines_eq_of_lines]
    exact List.mem_map_of_mem hmem
  rw [h.requestLines_eq] at hline
  rw [Project.replyEvents, List.mem_singleton.1 hline, h.ofLine] at he
  exact he

end Asks

/-- A request for the flags of a file. -/
def requestText (file : String) (noCache : Bool) : String :=
  .ofList (Json.objectOf (("filename", Json.Text.quote file) ::
    if noCache then [("options", Json.objectOf [("cache", Json.boolean false)])] else []))

/-- Whatever the name of a file, there is a line that asks for its flags. -/
theorem asks_requestText (file : String) (noCache : Bool) :
    Asks (requestText file noCache) file noCache := by
  have hcontrols : Json.NoControls (requestText file noCache).toList := by
    rw [requestText, String.toList_ofList]
    apply Json.noControls_objectOf
    intro m hm
    rcases List.mem_cons.1 hm with rfl | hm
    · exact Json.noControls_quote file
    · cases noCache with
      | false => cases hm
      | true =>
        rw [List.mem_singleton.1 hm]
        apply Json.noControls_objectOf
        intro m hm
        rw [List.mem_singleton.1 hm]
        exact Json.noControls_boolean false
  have hnot {b : UInt8} (hb : b.toNat < 0x20) : b ∉ Utf8.encode (requestText file noCache) := by
    intro h
    obtain ⟨c, hc, hcb⟩ := Utf8.exists_mem_of_mem_encodeChars h (by omega)
    have := hcontrols c hc
    omega
  refine ⟨?_, hnot (by decide), hnot (by decide)⟩
  apply Json.ofText?_of_reads
  cases noCache with
  | false => exact Json.reads_objectOf (.cons ⟨rfl, Json.reads_quote 126 file⟩ .nil)
  | true =>
    have hoptions : Json.Reads 126 (Json.objectOf [("cache", Json.boolean false)])
        (.object [("cache", .scalar (.boolean false))]) :=
      Json.reads_objectOf (.cons ⟨rfl, Json.reads_boolean 125 false⟩ .nil)
    exact Json.reads_objectOf (.cons ⟨rfl, Json.reads_quote 126 file⟩
      (.cons ⟨rfl, hoptions⟩ .nil))

/-! ## What the log shows -/

namespace Traced

variable {α β : Type}

/-- A step of which the log shows nothing. -/
def Unshown (t : Traced α) : Prop := ∀ e ∈ t.events, Main.isShown e = false

theorem unshown_pure (a : α) : Unshown (pure a) := by
  intro e he
  cases he

theorem unshown_quiet (result : Except Fault α) : Unshown (quiet result) := by
  intro e he
  cases he

theorem unshown_tell {e : Event} (h : Main.isShown e = false) : Unshown (tell e) := by
  intro e' he
  rw [List.mem_singleton.1 he]
  exact h

theorem Unshown.bind {t : Traced α} {next : α → Traced β} (ht : t.Unshown)
    (hnext : ∀ a, (next a).Unshown) : (t >>= next).Unshown := by
  intro e he
  have he : e ∈ (t.andThen next).events := he
  unfold andThen at he
  split at he
  · exact ht e he
  · rename_i a _
    rcases List.mem_append.1 he with he | he
    · exact ht e he
    · exact hnext a e he

end Traced

open Traced (unshown_pure unshown_quiet unshown_tell)

theorem Catalog.unshown_discoverIn (s : Surroundings) (places : List Path) :
    (discoverIn s places).Unshown := by
  induction places with
  | nil => exact unshown_pure _
  | cons place rest ih =>
    rw [discoverIn]
    refine (unshown_tell rfl).bind fun _ => ?_
    split
    · exact (unshown_tell rfl).bind fun _ => unshown_pure _
    · exact ih

theorem Catalog.unshown_ofFile (s : Surroundings) (file : Path) : (ofFile s file).Unshown :=
  (unshown_quiet _).bind fun _ => (unshown_quiet _).bind fun _ =>
    (unshown_tell rfl).bind fun _ => unshown_pure _

namespace Project

theorem unshown_catalogFile (s : Surroundings) (search file : Option Path) :
    (catalogFile s search file).Unshown := by
  unfold catalogFile
  split
  · exact unshown_pure _
  · exact unshown_pure _
  · exact (unshown_quiet _).bind fun _ => Catalog.unshown_discoverIn s _

theorem unshown_catalogOf (s : Surroundings) (file : Option Path) :
    (catalogOf s file).Unshown := by
  unfold catalogOf
  split
  · exact Catalog.unshown_ofFile s _
  · exact (unshown_tell rfl).bind fun _ => unshown_pure _

/-- The log shows nothing of loading a project. -/
theorem unshown_load (s : Surroundings) (search file root : Option Path) :
    (load s search file root).Unshown :=
  (unshown_catalogFile s search file).bind fun file =>
    (unshown_catalogOf s file).bind fun _ => (unshown_quiet _).bind fun _ =>
      (unshown_tell rfl).bind fun _ => unshown_pure _

theorem not_isShown_startEvent (p : Project) : Main.isShown p.startEvent = false := by
  unfold startEvent
  split <;> rfl

/-- The log shows nothing of answering a request in which everything is understood. -/
theorem not_isShown_answerEvents {p : Project} {file : String} {noCache : Bool} {e : Event}
    (he : e ∈ p.answerEvents (Program.requestOf file noCache)) : Main.isShown e = false := by
  rcases List.mem_cons.1 he with rfl | he
  · rfl
  · obtain ⟨r, -, rfl⟩ := List.mem_map.1 he
    rfl

end Project

/-- What a run leaves on the error output: the events that the log shows, and what it says about
its failure. -/
def Run.errorOutput (detailed : Bool) (r : Run) : String :=
  String.join ((r.events.filter Main.isShown).map fun e => e.line ++ "\n") ++ r.complaint detailed

/-! ## The two ways -/

/-- A text without a slash is a path of one piece. -/
theorem Path.back_ofString_of_slash_notMem {text : String} (h : '/' ∉ text.toList) :
    (ofString text).back = [Utf8.encode text] := by
  have hslash : slash ∉ Utf8.encode text :=
    fun hmem => h ((Utf8.ofNat_mem_encode_iff (a := '/') (by decide) text).1 hmem)
  have hpieces : pieces (· == slash) (Utf8.encode text) = [Utf8.encode text] :=
    pieces_of_notMem hslash
  rw [← List.reverse_inj, ← segments, ← pieces_bytes, ofString, bytes_ofBytes, hpieces]
  rfl

/-- The directory of a file name without a slash is the working directory. -/
theorem Loading.directoryOf_of_slash_notMem {file : String} (h : '/' ∉ file.toList) :
    directoryOf file = here ∨ directoryOf file = Path.empty := by
  have hback := Path.back_ofString_of_slash_notMem h
  have hbefore : (Path.ofString file).before = [] := (List.cons.inj hback).2
  have habs : (Path.ofString file).isAbsolute = false := by
    rw [Path.isAbsolute, hbefore]
    rfl
  unfold directoryOf Path.parent?
  split
  · exact .inl rfl
  · rename_i rest hd
    refine .inr ?_
    have hrest : rest = [] := by
      rw [hback, Path.dropLast?, Path.trimmed] at hd
      split at hd
      · cases hd
      · rename_i ht
        split at ht
        · cases ht
          cases hd
          rfl
        · cases ht
    subst hrest
    simp only [habs]
    rfl

namespace Workplace

/-- How the place of the catalog of the working directory is spelled where it is searched for as `.`
and not as an empty path. A catalog that is given is not searched for. -/
def spelling (w : Workplace) (catalog : Option Bytes) : Path → Path :=
  if catalog.isSome then id else w.dotted

end Workplace

theorem Fault.respelled_id (f : Fault) : f.respelled id = f := by
  have hid : Context.respelled id = id := by
    funext context
    cases context <;> rfl
  rw [Fault.respelled, hid, List.map_id]

theorem Project.respelled_id (p : Project) : p.respelled id = p := by
  rw [Project.respelled, Catalog.respelled, Option.map_id]
  rfl

/-- What is spelled in another way twice is spelled as if it were once, if that is so for paths. -/
theorem Fault.respelled_respelled {ρ : Path → Path} (h : ∀ p, ρ (ρ p) = ρ p) (f : Fault) :
    (f.respelled ρ).respelled ρ = f.respelled ρ := by
  have htwice : Context.respelled ρ ∘ Context.respelled ρ = Context.respelled ρ := by
    funext context
    cases context <;> simp only [Function.comp_apply, Context.respelled, h]
  rw [Fault.respelled, Fault.respelled, List.map_map, htwice]

theorem Project.respelled_respelled {ρ : Path → Path} (h : ∀ p, ρ (ρ p) = ρ p) (p : Project) :
    (p.respelled ρ).respelled ρ = p.respelled ρ := by
  have htwice : ρ ∘ ρ = ρ := funext h
  rw [Project.respelled, Project.respelled, Catalog.respelled, Catalog.respelled, Option.map_map,
    htwice]

/-- Loading a project for the working directory and for the directory of a file name without a
slash. -/
theorem Workplace.load_spelling (w : Workplace) (contents : Trail → Except IoError Bytes)
    {catalog : Option Bytes} (root : Option Path) {file : String}
    (hfile : catalog.isSome = true ∨ '/' ∉ file.toList)
    (hsize : catalog = none → w.slashPlace.size < minTooLong → w.dotPlace.size < minTooLong) :
    (Loading.load (w.reading contents) ⟨Loading.here, catalog.map .ofBytes, root⟩).result =
      ((Loading.load (w.reading contents)
        ⟨Loading.directoryOf file, catalog.map .ofBytes, root⟩).result.map
          (Project.respelled (w.spelling catalog))).mapError
            (Fault.respelled (w.spelling catalog)) := by
  cases catalog with
  | some v =>
    have hload (dir : Path) : Loading.load (w.reading contents) ⟨dir, some (.ofBytes v), root⟩ =
        Project.load (w.reading contents) none (some (.ofBytes v)) root := rfl
    show (Loading.load _ ⟨_, some (.ofBytes v), root⟩).result = _
    rw [hload]
    show _ = ((Loading.load _ ⟨_, some (.ofBytes v), root⟩).result.map _).mapError _
    rw [hload]
    cases (Project.load (w.reading contents) none (some (.ofBytes v)) root).result with
    | error f => exact congrArg Except.error (Fault.respelled_id f).symm
    | ok p => exact congrArg Except.ok (Project.respelled_id p).symm
  | none =>
    have hslash : '/' ∉ file.toList := hfile.resolve_left Bool.false_ne_true
    have hhere := Workplace.load_here (hsize rfl) contents root
    show (Project.load _ (some Loading.here) none root).result = (Except.map _
      (Project.load _ (some (Loading.directoryOf file)) none root).result).mapError _
    rcases Loading.directoryOf_of_slash_notMem hslash with hdir | hdir
    · rw [hdir, hhere]
      cases (Project.load (w.reading contents) (some Path.empty) none root).result with
      | error f => exact congrArg Except.error (Fault.respelled_respelled w.dotted_dotted f).symm
      | ok p => exact congrArg Except.ok (Project.respelled_respelled w.dotted_dotted p).symm
    · rw [hdir]
      exact hhere

/-! ## Runs that answer one request -/

/-- What a run works with whose input is one line. -/
def Console.onLine (files : Surroundings) (text : String) (terminal : Bool)
    (revision : Option String) : Console where
  files := files
  input := { data := Utf8.encode text ++ [newline] }
  output := .unlimited
  terminal := terminal
  revision := revision

/-- What a run comes to that loads a project and answers one request: the output is the answer on a
line of its own, or nothing if there is no project. -/
structure Run.Answers (r : Run) (request : Request) (loaded : Except Fault Project) : Prop where
  ending : r.ending = loaded.map fun _ => ()
  output : r.output = match loaded with
    | .ok p => Sink.lineOf (p.answer request).written
    | .error _ => []
  unshown : ∀ e ∈ r.events, Main.isShown e = false

theorem Run.answers_ofTraced {t : Traced Project} {next : Project → Run} {request : Request}
    (ht : t.Unshown) (h : ∀ p, (next p).Answers request (.ok p)) :
    (ofTraced t next).Answers request t.result := by
  unfold ofTraced
  cases t.result with
  | error f => exact ⟨rfl, rfl, ht⟩
  | ok p =>
    refine ⟨(h p).ending, (h p).output, ?_⟩
    intro e he
    rcases List.mem_append.1 he with he | he
    · exact ht e he
    · exact (h p).unshown e he

/-- A run that answers a request after it has told of some events. -/
theorem Run.answers_after {r : Run} {p : Project} {request : Request} {events : List Event}
    (hending : r.ending = .ok ()) (houtput : r.output = Sink.lineOf (p.answer request).written)
    (hevents : ∀ e ∈ events, Main.isShown e = false)
    (hunshown : ∀ e ∈ r.events, Main.isShown e = false) :
    (r.after [] events).Answers request (.ok p) := by
  refine ⟨hending, houtput, ?_⟩
  intro e he
  rcases List.mem_append.1 he with he | he
  · exact hevents e he
  · exact hunshown e he

namespace Program

open CommandLine

/-- A run whose arguments ask for something to be done with a project. -/
theorem run_onProject {c : Console} {args : List Bytes} {l : Loading} {task : Task}
    (h : Command.ofArguments args = .ok (.onProject l task)) :
    run c args = .ofTraced (l.load c.files) fun p => runTask c p task := by
  rw [run, h]
  rfl

variable (files : Surroundings) (catalog root : Option Bytes) (terminal : Bool)
  (revision : Option String)

theorem answers_flags (input : Source) (file : String) (noCache : Bool) :
    (run { files, input, output := .unlimited, terminal, revision }
      (flagsArguments catalog root noCache file)).Answers (requestOf file noCache)
        (Loading.load files
          ⟨Loading.directoryOf file, catalog.map .ofBytes, root.map .ofBytes⟩).result := by
  rw [run_onProject (Command.ofArguments_flags catalog root noCache file)]
  apply Run.answers_ofTraced (Project.unshown_load _ _ _ _)
  intro p
  have hlines : Run.ofLines (answerLines .json (p.answer (requestOf file noCache))) .unlimited =
      { output := Sink.lineOf (p.answer (requestOf file noCache)).written } := by
    simp only [answerLines, Run.ofLines, Sink.put, Run.after, List.append_nil]
  apply Run.answers_after
  · rw [hlines]
  · rw [hlines]
  · intro e he
    rcases List.mem_cons.1 he with rfl | he
    · exact p.not_isShown_startEvent
    · exact Project.not_isShown_answerEvents he
  · intro e he
    rw [hlines] at he
    cases he

theorem answers_serve {text file : String} {noCache : Bool} (h : Asks text file noCache) :
    (run (.onLine files text terminal revision) (serveArguments catalog root)).Answers
      (requestOf file noCache)
      (Loading.load files ⟨Loading.here, catalog.map .ofBytes, root.map .ofBytes⟩).result := by
  rw [run_onProject (Command.ofArguments_serve catalog root)]
  apply Run.answers_ofTraced (Project.unshown_load _ _ _ _)
  intro p
  apply Run.answers_after (p.ending_serve_unlimited _) (h.output_serve p)
  · intro e he
    rw [List.mem_singleton.1 he]
    exact p.not_isShown_startEvent
  · intro e he
    exact Project.not_isShown_answerEvents (h.mem_events_serve he)

end Program

/-! ## Both ways -/

/-- Whether a fault is about the contents of a file. -/
def Fault.isAbout (file : Path) (f : Fault) : Bool :=
  f.contexts.any fun context =>
    context == .readingCatalog file || context == .invalidCatalog file

/-- A fault that is not about the catalog of the working directory is told in one way. -/
theorem Fault.respelled_dotted {w : Workplace} {f : Fault} (h : f.isAbout w.slashPlace = false) :
    f.respelled w.dotted = f := by
  have hsame (context : Context) (hc : context ∈ f.contexts) :
      context.respelled w.dotted = context := by
    have hnot := List.any_eq_false.1 h context hc
    rw [Bool.not_eq_true, Bool.or_eq_false_iff, beq_eq_false_iff_ne, beq_eq_false_iff_ne] at hnot
    cases context with
    | readingCatalog path =>
      have hpath : path ≠ w.slashPlace := fun hp => hnot.1 (by rw [hp])
      rw [Context.respelled, Workplace.dotted, if_neg hpath]
    | invalidCatalog path =>
      have hpath : path ≠ w.slashPlace := fun hp => hnot.2 (by rw [hp])
      rw [Context.respelled, Workplace.dotted, if_neg hpath]
    | _ => rfl
  rw [respelled, List.map_congr_left hsame, List.map_id']

namespace Run

variable {r r' : Run} {request : Request} {loaded : Except Fault Project} {ρ : Path → Path}

/-- Runs whose projects only differ in the spelling of paths write the same, and end in the same way
but for that spelling. -/
theorem Answers.agree (h : r.Answers request loaded)
    (h' : r'.Answers request
      ((loaded.map (Project.respelled ρ)).mapError (Fault.respelled ρ))) :
    r'.exitCode = r.exitCode ∧ r'.output = r.output ∧
      r'.ending = r.ending.mapError (Fault.respelled ρ) := by
  have hending : r'.ending = r.ending.mapError (Fault.respelled ρ) := by
    rw [h.ending, h'.ending]
    cases loaded <;> rfl
  refine ⟨?_, ?_, hending⟩
  · rw [exitCode, exitCode, hending]
    cases r.ending <;> rfl
  · rw [h.output, h'.output]
    cases loaded <;> rfl

/-- A run that answers the request ends well. -/
theorem Answers.exitCode_eq_zero {p : Project} (h : r.Answers request (.ok p)) :
    r.exitCode = 0 := by
  rw [exitCode, h.ending]
  rfl

theorem errorOutput_of_unshown (h : ∀ e ∈ r.events, Main.isShown e = false) (detailed : Bool) :
    r.errorOutput detailed = r.complaint detailed := by
  have hnone : r.events.filter Main.isShown = [] := by
    rw [List.filter_eq_nil_iff]
    intro e he
    rw [h e he]
    exact Bool.false_ne_true
  rw [errorOutput, hnone]
  exact String.empty_append

end Run

namespace Program

open CommandLine

/-- **The flags of a file, asked for on the command line and in a request.** With the same options,
the catalog given or the file named without a slash, both ways end with the same exit code and write
the same output, whatever is in the files and whether or not they can be read. On the error output
there is only what they complain about, and they complain in the same way, too, but for the catalog
of the working directory: where it is searched for, and cannot be used, a session spells its path
with a dot. -/
theorem serve_agrees_with_flags (w : Workplace) (contents : Trail → Except IoError Bytes)
    (catalog root : Option Bytes) (file text : String) (noCache terminal : Bool)
    (revision : Option String) (input : Source)
    (hfile : catalog.isSome = true ∨ '/' ∉ file.toList)
    (hsize : catalog = none →
      w.slashPlace.size < Workplace.minTooLong → w.dotPlace.size < Workplace.minTooLong)
    (htext : Asks text file noCache) :
    let flags :=
      run { files := w.reading contents, input, output := .unlimited, terminal, revision }
        (flagsArguments catalog root noCache file)
    let serve := run (.onLine (w.reading contents) text terminal revision)
      (serveArguments catalog root)
    serve.exitCode = flags.exitCode ∧ serve.output = flags.output ∧
    serve.ending = flags.ending.mapError (Fault.respelled (w.spelling catalog)) ∧
    (∀ detailed, flags.errorOutput detailed = flags.complaint detailed ∧
      serve.errorOutput detailed = serve.complaint detailed) ∧
    ((∀ f, flags.ending = .error f → catalog.isSome = true ∨ f.isAbout w.slashPlace = false) →
      ∀ detailed, serve.errorOutput detailed = flags.errorOutput detailed) := by
  intro flags serve
  have hflags :=
    answers_flags (w.reading contents) catalog root terminal revision input file noCache
  have hserve := answers_serve (w.reading contents) catalog root terminal revision htext
  rw [w.load_spelling contents _ hfile hsize] at hserve
  obtain ⟨hcode, houtput, hending⟩ := Run.Answers.agree hflags hserve
  have hquiet (detailed : Bool) : flags.errorOutput detailed = flags.complaint detailed ∧
      serve.errorOutput detailed = serve.complaint detailed :=
    ⟨Run.errorOutput_of_unshown hflags.unshown detailed,
      Run.errorOutput_of_unshown hserve.unshown detailed⟩
  refine ⟨hcode, houtput, hending, hquiet, ?_⟩
  intro hfault detailed
  have hsame : serve.ending = flags.ending := by
    rw [hending]
    cases he : flags.ending with
    | ok u => rfl
    | error f =>
      refine congrArg Except.error ?_
      cases catalog with
      | some v => exact f.respelled_id
      | none => exact Fault.respelled_dotted ((hfault f he).resolve_left Bool.false_ne_true)
  rw [(hquiet detailed).1, (hquiet detailed).2, Run.complaint, Run.complaint, hsame]

/-- A working directory along names, with a catalog that is no text. -/
def unusable (names : List Bytes) : Workplace where
  tree := names.foldr (fun name node => .directory [(name, node)])
    (.directory [(Catalog.leaf, .file [0x80])])
  current := names

/-- The flags of a file there, asked for on the command line. -/
def unusableFlags (names : List Bytes) (catalog root : Option Bytes) : Run :=
  run { files := (unusable names).surroundings, input := { data := [] }, output := .unlimited }
    (flagsArguments catalog root false "a.c")

/-- The same in a request. -/
def unusableServe (names : List Bytes) (catalog root : Option Bytes) : Run :=
  run (.onLine (unusable names).surroundings (requestText "a.c" false) false none)
    (serveArguments catalog root)

/-- The names of a directory near the root. -/
def shallow : List Bytes := [Utf8.encode "w"]

/-- The names of a directory so far from the root that the path of its catalog is just short
enough. -/
def deep : List Bytes := List.replicate 16 (List.replicate 250 0x77) ++ [List.replicate 62 0x77]

/-- Both ways end with the same exit code and write the same, and if the catalog is given, they
complain in the same way. -/
theorem agree_on_unusable :
    (unusableServe shallow none none).exitCode = (unusableFlags shallow none none).exitCode ∧
      (unusableServe shallow none none).output = (unusableFlags shallow none none).output ∧
      ∀ detailed, (unusableServe shallow (some Catalog.leaf) none).errorOutput detailed =
        (unusableFlags shallow (some Catalog.leaf) none).errorOutput detailed := by
  have hsearched := serve_agrees_with_flags (unusable shallow) (unusable shallow).contents none none
    "a.c" (requestText "a.c" false) false false none { data := [] } (.inr (by decide))
    (fun _ _ => by decide +kernel) (asks_requestText "a.c" false)
  have hgiven := serve_agrees_with_flags (unusable shallow) (unusable shallow).contents
    (some Catalog.leaf) none "a.c" (requestText "a.c" false) false false none { data := [] }
    (.inl rfl) (fun h => by cases h) (asks_requestText "a.c" false)
  rw [Workplace.reading_contents] at hsearched hgiven
  exact ⟨hsearched.1, hsearched.2.1, hgiven.2.2.2.2 fun _ _ => .inl rfl⟩

/-- Where the catalog is too far away to be found, a session does not fail on it. -/
theorem exitCode_unusableServe_deep :
    (unusableServe deep none (some [Path.slash])).exitCode = 0 := by
  have hanswers := answers_serve (unusable deep).surroundings none (some [Path.slash]) false none
    (asks_requestText "a.c" false)
  have hloaded : (Loading.load (unusable deep).surroundings ⟨Loading.here,
      (none : Option Bytes).map .ofBytes,
      (some [Path.slash]).map .ofBytes⟩).result.toOption.isSome = true := by
    decide +kernel
  obtain ⟨p, hp⟩ := Option.isSome_iff_exists.1 hloaded
  rw [toOption_eq_some_iff.1 hp] at hanswers
  exact hanswers.exitCode_eq_zero

theorem exitCode_unusableFlags_deep :
    (unusableFlags deep none (some [Path.slash])).exitCode = 1 := by
  decide +kernel

/-- **The two ways can differ.** The line asks for the flags of the file, which is named without a
slash, and still what is said about the catalog of the working directory is not the same. Where only
its longer spelling is too long, one way fails on the catalog and the other does not find it. -/
theorem ways_differ :
    Asks (requestText "a.c" false) "a.c" false ∧ '/' ∉ "a.c".toList ∧
      (unusableFlags shallow none none).errorOutput false =
        "invalid catalog /w/.flagconf.toml: catalog is not valid UTF-8: " ++
          "invalid utf-8 sequence of 1 bytes from index 0\n" ∧
      (unusableServe shallow none none).errorOutput false =
        "invalid catalog /w/./.flagconf.toml: catalog is not valid UTF-8: " ++
          "invalid utf-8 sequence of 1 bytes from index 0\n" ∧
      (unusableServe shallow none none).errorOutput false ≠
        (unusableFlags shallow none none).errorOutput false ∧
      (unusableFlags deep none (some [Path.slash])).exitCode = 1 ∧
      (unusableServe deep none (some [Path.slash])).exitCode = 0 := by
  refine ⟨asks_requestText "a.c" false, by decide, ?_, ?_, ?_, exitCode_unusableFlags_deep,
    exitCode_unusableServe_deep⟩
  · decide +kernel
  · decide +kernel
  · decide +kernel

end Program

end CompileFlags
