import CompileFlags.Command

/-!
# What arguments ask for

An option with a value of its own argument, an option without a value, and what follows two hyphens
are each read in one way, whatever the command. From these come the commands that arguments ask for.

* `Grammar.read_value`, `Grammar.read_switch`, `Grammar.read_separator` — the three ways.
* `Command.ofArguments_flags`, `Command.ofArguments_serve` — what the arguments for the flags of a
  file and for answers to requests ask for.
-/

namespace CompileFlags

namespace CommandLine

namespace Grammar

variable {σ : Type} {g : Grammar σ} {rule : OptionRule σ} {arg chain v : Bytes} {c : Char}

/-- A first letter that takes a value takes what stands behind it, or else waits for the next
argument. -/
theorem readChain_value {apply : Bytes → σ → Except Fault σ} {rest : Bytes}
    (hf : Utf8.front chain = .char c rest) (hr : g.short? c = some rule)
    (he : rule.effect = .value apply) (s : σ) :
    g.readChain none chain s =
      match rest with
      | [] => .ok (.wanting (shortSpelling c) rule apply s)
      | b :: more => (apply (if b = equals then more else b :: more) s).map .finished := by
  rw [readChain]
  split
  · rename_i h
    rw [hf] at h
    cases h
  · rename_i c' rest' h
    rw [hf] at h
    cases h
    cases rest with
    | nil => simp only [Option.filter_none, hr, he]
    | cons b more => simp only [Option.filter_none, hr, he]
  · rename_i h
    rw [hf] at h
    cases h
  · rename_i h
    rw [hf] at h
    cases h

/-- A letter that takes a value takes the next argument. -/
theorem read_value {apply : Bytes → σ → Except Fault σ} (hs : Spelling.of arg = .shorts chain)
    (hf : Utf8.front chain = .char c []) (hr : g.short? c = some rule)
    (he : rule.effect = .value apply) (rest : List Bytes) (s : σ) :
    g.read (arg :: v :: rest) s = (apply v s).bind fun s => g.read rest s := by
  rw [read]
  simp only [hs, readChain_value hf hr he]

/-- A name that takes no value stands for itself. -/
theorem read_switch {long : String} (set : σ → σ)
    (hs : Spelling.of arg = .long (Utf8.encode long) none)
    (hr : g.options.find? (fun rule => rule.long == some long) = some (switchOption long set))
    (rest : List Bytes) (s : σ) : g.read (arg :: rest) s = g.read rest (set s) := by
  have hlong : g.long? (Utf8.encode long) = some (switchOption long set) := by
    rw [long?, Utf8.lossy_encode]
    exact hr
  rw [read]
  simp only [hs, hlong, switchOption]
  rfl

/-- After two hyphens there are only operands. -/
theorem read_separator (hs : Spelling.of arg = .separator) (rest : List Bytes) (s : σ) :
    g.read (arg :: rest) s = g.readOperands rest s := by
  rw [read]
  simp only [hs]

end Grammar

/-- An option with its value as the next argument, if it is given. -/
def given (option : String) : Option Bytes → List Bytes
  | none => []
  | some v => [Utf8.encode option, v]

/-- The options that say where a project is found. -/
def projectOptions (catalog root : Option Bytes) : List Bytes :=
  given "-c" catalog ++ given "-r" root

/-- The arguments that ask for the flags of a file. -/
def flagsArguments (catalog root : Option Bytes) (noCache : Bool) (file : String) : List Bytes :=
  Utf8.encode "flags" :: (projectOptions catalog root ++
    ((if noCache then [Utf8.encode "--no-cache"] else []) ++
      [Utf8.encode "--", Utf8.encode file]))

/-- The arguments that ask for answers to requests. -/
def serveArguments (catalog root : Option Bytes) : List Bytes :=
  Utf8.encode "serve" :: projectOptions catalog root

/-- Reads an option whose value is a path. -/
theorem read_given {σ : Type} {g : Grammar σ} {option long : String} {c : Char}
    (set : Path → σ → σ) (hs : Spelling.of (Utf8.encode option) = .shorts (Utf8.encodeChar c))
    (hr : g.short? c = some (pathOption c long set)) (value : Option Bytes) (rest : List Bytes)
    (s : σ) :
    g.read (given option value ++ rest) s =
      g.read rest (match value with | none => s | some v => set (.ofBytes v) s) := by
  cases value with
  | none => rfl
  | some v =>
    have hf : Utf8.front (Utf8.encodeChar c) = .char c [] := by
      have h := Utf8.front_encodeChar c []
      rwa [List.append_nil] at h
    exact Grammar.read_value hs hf hr rfl rest s

theorem spelling_c : Spelling.of (Utf8.encode "-c") = .shorts (Utf8.encodeChar 'c') := rfl

theorem spelling_r : Spelling.of (Utf8.encode "-r") = .shorts (Utf8.encodeChar 'r') := rfl

theorem textOf_encode (s : String) : textOf (Utf8.encode s) = .ok s := by
  rw [textOf, Utf8.decode_encode]

/-- The arguments of a command whose name is written first. -/
theorem commandOf_name {usage name : String} (h : Spelling.of (Utf8.encode name) = .operand)
    (rest : List Bytes) :
    commandOf usage (Utf8.encode name :: rest) = .ok (name, ⟨false, rest⟩) := by
  unfold commandOf
  simp only [h, textOf_encode]
  rfl

theorem flagsCommand_arguments (catalog root : Option Bytes) (noCache : Bool) (file : String) :
    flagsCommand ⟨false, projectOptions catalog root ++
      ((if noCache then [Utf8.encode "--no-cache"] else []) ++
        [Utf8.encode "--", Utf8.encode file])⟩ =
      .ok (file, { catalog := catalog.map .ofBytes, root := root.map .ofBytes, noCache }) := by
  have hend (c : OfFile FlagsOptions) : flagsGrammar.read
      ((if noCache then [Utf8.encode "--no-cache"] else []) ++
        [Utf8.encode "--", Utf8.encode file]) c =
      flagsGrammar.readOperands [Utf8.encode file]
        (if noCache then c.change fun o => { o with noCache := true } else c) := by
    have hseparator : Spelling.of (Utf8.encode "--") = .separator := rfl
    cases noCache with
    | false => exact Grammar.read_separator hseparator _ _
    | true =>
      have hlong : Spelling.of (Utf8.encode "--no-cache") =
          .long (Utf8.encode "no-cache") none := rfl
      exact (Grammar.read_switch (OfFile.change fun o => { o with noCache := true }) hlong rfl _
        _).trans (Grammar.read_separator hseparator _ _)
  rw [flagsCommand, Grammar.readArguments, if_neg Bool.false_ne_true, projectOptions,
    List.append_assoc,
    read_given (fun p => OfFile.change fun o => { o with catalog := some p }) spelling_c rfl,
    read_given (fun p => OfFile.change fun o => { o with root := some p }) spelling_r rfl, hend]
  have hfile (c : OfFile FlagsOptions) (hc : c.file = none) :
      flagsGrammar.readOperands [Utf8.encode file] c = .ok { c with file := some file } := by
    have hoperand : OfFile.operand (Utf8.encode file) c = .ok { c with file := some file } := by
      rw [OfFile.operand, hc, textOf_encode]
      rfl
    rw [Grammar.readOperands, List.foldlM_cons]
    show (OfFile.operand (Utf8.encode file) c).bind _ = _
    rw [hoperand]
    rfl
  rw [hfile]
  · cases catalog <;> cases root <;> cases noCache <;> rfl
  · cases catalog <;> cases root <;> cases noCache <;> rfl

theorem serveCommand_arguments (catalog root : Option Bytes) :
    serveCommand ⟨false, projectOptions catalog root⟩ =
      .ok ⟨catalog.map .ofBytes, root.map .ofBytes⟩ := by
  rw [serveCommand, Grammar.readArguments, if_neg Bool.false_ne_true, projectOptions,
    read_given (fun p o => { o with catalog := some p }) spelling_c rfl,
    ← List.append_nil (given "-r" root),
    read_given (fun p o => { o with root := some p }) spelling_r rfl]
  cases catalog <;> cases root <;> rfl

end CommandLine

namespace Command

open CommandLine

/-- What the arguments for the flags of a file ask for. -/
theorem ofArguments_flags (catalog root : Option Bytes) (noCache : Bool) (file : String) :
    ofArguments (flagsArguments catalog root noCache file) =
      .ok (.onProject ⟨Loading.directoryOf file, catalog.map .ofBytes, root.map .ofBytes⟩
        (.flags file .json noCache)) := by
  rw [ofArguments, flagsArguments, commandOf_name rfl]
  show (flagsCommand _).map _ = _
  rw [flagsCommand_arguments]
  rfl

/-- What the arguments for answers to requests ask for. -/
theorem ofArguments_serve (catalog root : Option Bytes) :
    ofArguments (serveArguments catalog root) =
      .ok (.onProject ⟨Loading.here, catalog.map .ofBytes, root.map .ofBytes⟩ .serve) := by
  rw [ofArguments, serveArguments, commandOf_name rfl]
  show (serveCommand _).map _ = _
  rw [serveCommand_arguments]
  rfl

end Command

end CompileFlags
