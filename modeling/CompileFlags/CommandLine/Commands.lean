import CompileFlags.Choice
import CompileFlags.CommandLine.Grammar
import CompileFlags.Filter
import CompileFlags.Help

/-!
# Commands

What each command can be told on the command line.
-/

namespace CompileFlags.CommandLine

/-! ## Kinds of options -/

variable {σ : Type}

/-- Shows a help instead of running a command. -/
def showing (help : String) : Effect σ := .switch fun _ => .error (.ofComplaint (.usage help))

/-- The options `-h` and `--help` with the same help. -/
def helpOption (help : String) : OptionRule σ := ⟨some 'h', some "help", showing help⟩

/-- The options `-h` and `--help` with a short and a long help. -/
def helpOptions (brief full : String) : List (OptionRule σ) :=
  [⟨some 'h', none, showing brief⟩, ⟨none, some "help", showing full⟩]

/-- An option whose value is a path. -/
def pathOption (short : Char) (long : String) (set : Path → σ → σ) : OptionRule σ :=
  ⟨some short, some long, .value fun v s => .ok (set (.ofBytes v) s)⟩

/-- The option for the catalog. -/
def catalogOption (set : Path → σ → σ) : OptionRule σ := pathOption 'c' "catalog" set

/-- The option for the root. -/
def rootOption (set : Path → σ → σ) : OptionRule σ := pathOption 'r' "root" set

/-- The value of an option as a text; `label` is what messages call the option. -/
def textValue (label : String) (v : Bytes) : Except Fault String :=
  inContext (.option label) (textOf v)

/-- An option whose value is one of a few names. -/
def choiceOption {α : Type} (short : Option Char) (long : String)
    (ofName : String → Except Complaint α) (set : α → σ → σ) : OptionRule σ :=
  let label := OptionRule.label (σ := σ) ⟨short, some long, .switch .ok⟩
  ⟨short, some long, .value fun v s => do
    let name ← textValue label v
    let choice ← (ofName name).mapError fun c => .ofComplaint (.optionValue label c)
    .ok (set choice s)⟩

/-- An option that stands for itself. -/
def switchOption (long : String) (set : σ → σ) : OptionRule σ :=
  ⟨none, some long, .switch fun s => .ok (set s)⟩

/-- Refuses every operand. -/
def noOperand (arg : Bytes) (_ : σ) : Except Fault σ := refused (.unexpectedArgument arg)

/-! ## Commands for one file -/

/-- The settings of a command that is about one file. -/
structure OfFile (α : Type) where
  file : Option String := none
  options : α

namespace OfFile

variable {α : Type}

/-- Takes an operand as the file. -/
def operand (arg : Bytes) (c : OfFile α) : Except Fault (OfFile α) :=
  if c.file.isSome then .error (.ofComplaint .fileRepeated)
  else (textOf arg).map fun file => { c with file := some file }

/-- The file and the other settings. -/
def complete (c : OfFile α) : Except Fault (String × α) :=
  match c.file with
  | some file => .ok (file, c.options)
  | none => .error (.ofComplaint .fileMissing)

/-- Changes the other settings. -/
def change (set : α → α) (c : OfFile α) : OfFile α := { c with options := set c.options }

end OfFile

/-- What `flags` can be told. -/
structure FlagsOptions where
  catalog : Option Path := none
  root : Option Path := none
  layout : Layout := .json
  noCache : Bool := false
  deriving DecidableEq, Repr

def flagsGrammar : Grammar (OfFile FlagsOptions) where
  options := helpOptions Help.flagsBrief Help.flagsFull ++
    [catalogOption fun p => OfFile.change fun o => { o with catalog := some p },
      rootOption fun p => OfFile.change fun o => { o with root := some p },
      choiceOption (some 'f') "format" Layout.ofName
        fun l => OfFile.change fun o => { o with layout := l },
      switchOption "no-cache" (OfFile.change fun o => { o with noCache := true })]
  operand := OfFile.operand

/-- Reads the arguments of `flags`. -/
def flagsCommand (args : Arguments) : Except Fault (String × FlagsOptions) :=
  (flagsGrammar.readArguments args { options := {} }).bind OfFile.complete

/-- What `classify` can be told is the catalog. -/
def classifyGrammar : Grammar (OfFile (Option Path)) where
  options := [helpOption Help.classify, catalogOption fun p => OfFile.change fun _ => some p]
  operand := OfFile.operand

/-- Reads the arguments of `classify`. -/
def classifyCommand (args : Arguments) : Except Fault (String × Option Path) :=
  (classifyGrammar.readArguments args { options := none }).bind OfFile.complete

/-! ## Other commands -/

/-- What `normalize` can be told. -/
structure NormalizeOptions where
  root : Option Path := none
  noRoot : Bool := false
  flags : List String := []
  deriving DecidableEq, Repr

def normalizeGrammar : Grammar NormalizeOptions where
  options := [helpOption Help.normalize,
    rootOption fun p o => { o with root := some p },
    switchOption "no-root" fun o => { o with noRoot := true }]
  operand := fun arg o => (textOf arg).map fun flag => { o with flags := o.flags ++ [flag] }

/-- Reads the arguments of `normalize`. -/
def normalizeCommand (args : Arguments) : Except Fault NormalizeOptions := do
  let o ← normalizeGrammar.readArguments args {}
  if o.noRoot && o.root.isSome then .error (.ofComplaint .rootAndNoRoot) else .ok o

/-- What `serve` can be told. -/
structure ServeOptions where
  catalog : Option Path := none
  root : Option Path := none
  deriving DecidableEq, Repr

def serveGrammar : Grammar ServeOptions where
  options := [helpOption Help.serve,
    catalogOption fun p o => { o with catalog := some p },
    rootOption fun p o => { o with root := some p }]
  operand := noOperand

/-- Reads the arguments of `serve`. -/
def serveCommand (args : Arguments) : Except Fault ServeOptions :=
  serveGrammar.readArguments args {}

/-- What `catalog` can be told. -/
structure CatalogOptions where
  catalog : Option Path := none
  root : Option Path := none
  color : Color := .auto
  filter : Filter := {}

/-- An option whose value is a pattern that includes or excludes. -/
def patternOption (short : Char) (long : String) (includes : Bool) : OptionRule CatalogOptions :=
  let label := OptionRule.label (σ := CatalogOptions) ⟨some short, some long, .switch .ok⟩
  ⟨some short, some long, .value fun v o => do
    let text ← textValue label v
    let filter ← inContext (.option label) (o.filter.add includes text)
    .ok { o with filter }⟩

def catalogGrammar : Grammar CatalogOptions where
  options := helpOptions Help.catalogBrief Help.catalogFull ++
    [catalogOption fun p o => { o with catalog := some p },
      rootOption fun p o => { o with root := some p },
      choiceOption none "color" Color.ofName fun c o => { o with color := c },
      patternOption 'f' "filter" true,
      patternOption 'F' "filter-not" false]
  operand := noOperand

/-- Reads the arguments of `catalog`. -/
def catalogCommand (args : Arguments) : Except Fault CatalogOptions :=
  catalogGrammar.readArguments args {}

/-- What `version` can be told is nothing. -/
def versionGrammar : Grammar Unit where
  options := [helpOption Help.version]
  operand := noOperand

/-- Reads the arguments of `version`. -/
def versionCommand (args : Arguments) : Except Fault Unit := versionGrammar.readArguments args ()

end CompileFlags.CommandLine
