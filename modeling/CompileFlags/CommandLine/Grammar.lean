import CompileFlags.Fault
import CompileFlags.Text.Character

/-!
# Arguments of a command

Arguments are options and operands. An option is written `--name`, or as one letter `-n`; letters
can follow each other behind one hyphen. The value of an option stands behind an equals sign, or
right behind its letter, or is the next argument, whatever that looks like. After `--` all arguments
are operands, and `-` is always one.

* `Grammar.read` reads arguments into the settings of a command, in order, and stops at the first
  that is wrong.
* `commandOf` takes the name of a command off the arguments of a run.
-/

namespace CompileFlags.CommandLine

/-- What an option does to settings. -/
inductive Effect (σ : Type) where
  /-- It stands for itself. -/
  | switch (apply : σ → Except Fault σ)
  /-- It takes a value. -/
  | value (apply : Bytes → σ → Except Fault σ)

/-- An option, with its spellings. -/
structure OptionRule (σ : Type) where
  short : Option Char
  long : Option String
  effect : Effect σ

/-- The options of a command, and what it does with operands. -/
structure Grammar (σ : Type) where
  options : List (OptionRule σ)
  operand : Bytes → σ → Except Fault σ

/-- Refused arguments as a fault. -/
def refused {α : Type} (e : Error) : Except Fault α := .error (.ofCause (.arguments e))

/-- The text that an argument is. -/
def textOf (arg : Bytes) : Except Fault String :=
  match Utf8.decode arg with
  | .ok text => .ok text
  | .error _ => refused (.notText arg)

/-! ## Spellings -/

/-- The bytes that make an argument an option and that end its name. -/
def hyphen : UInt8 := 0x2D
def equals : UInt8 := 0x3D

/-- How an argument is spelled. -/
inductive Spelling where
  | separator
  /-- A name, and the value behind it if there is one. -/
  | long (name : Bytes) (value : Option Bytes)
  /-- Letters behind a hyphen. -/
  | shorts (chain : Bytes)
  | operand
  deriving DecidableEq, Repr

/-- What stands behind the first equals sign, if there is one. -/
def afterEquals (bs : Bytes) : Option Bytes := (bs.dropWhile (· != equals)).tail?

/-- The spelling of an argument. -/
def Spelling.of : Bytes → Spelling
  | a :: b :: rest =>
    if a ≠ hyphen then .operand
    else if b ≠ hyphen then .shorts (b :: rest)
    else if rest = [] then .separator
    else .long (rest.takeWhile (· != equals)) (afterEquals rest)
  | _ => .operand

/-- An option as it is spelled with a name. -/
def longSpelling (name : Bytes) : String := "--" ++ Utf8.lossy name

/-- An option as it is spelled with a letter. -/
def shortSpelling (c : Char) : String := .ofList ['-', c]

/-! ## Reading -/

namespace OptionRule

variable {σ : Type}

/-- What messages call an option. -/
def label (rule : OptionRule σ) : String :=
  String.intercalate "/" (rule.short.toList.map shortSpelling ++ rule.long.toList.map ("--" ++ ·))

/-- Refuses an option behind which the arguments end. -/
def missing {α : Type} (rule : OptionRule σ) (spelled : String) : Except Fault α :=
  inContext (.option rule.label) (refused (.valueMissing spelled))

end OptionRule

/-- How a chain of letters ends: with settings, or with an option that takes the next argument. -/
inductive ChainEnd (σ : Type) where
  | finished (s : σ)
  | wanting (spelled : String) (rule : OptionRule σ) (apply : Bytes → σ → Except Fault σ) (s : σ)

namespace Grammar

variable {σ : Type}

/-- The option with a letter. -/
def short? (g : Grammar σ) (c : Char) : Option (OptionRule σ) :=
  g.options.find? fun rule => rule.short == some c

/-- The option with a name. -/
def long? (g : Grammar σ) (name : Bytes) : Option (OptionRule σ) :=
  g.options.find? fun rule => rule.long == some (Utf8.lossy name)

/-- Reads letters behind a hyphen, of which `before` was the last so far. -/
def readChain (g : Grammar σ) (before : Option Char) (bs : Bytes) (s : σ) :
    Except Fault (ChainEnd σ) :=
  match _h : Utf8.front bs with
  | .finished => .ok (.finished s)
  | .char c rest =>
    -- an equals sign behind a letter starts a value of it
    match before.filter fun _ => c = '=' with
    | some b => refused (.valueNotTaken (shortSpelling b) rest)
    | none =>
      match g.short? c with
      | none => refused (.unknownOption (shortSpelling c))
      | some rule =>
        match rule.effect with
        | .switch apply => (apply s).bind fun s => g.readChain (some c) rest s
        | .value apply =>
          match rest with
          | [] => .ok (.wanting (shortSpelling c) rule apply s)
          | b :: more => (apply (if b = equals then more else b :: more) s).map .finished
  | .bad _ _ => refused (.unknownOption (shortSpelling '\uFFFD'))
  | .cut => refused (.unknownOption (shortSpelling '\uFFFD'))
termination_by bs.length
decreasing_by exact Utf8.front_char_length _h

/-- Reads arguments that are all operands. -/
def readOperands (g : Grammar σ) (args : List Bytes) (s : σ) : Except Fault σ :=
  args.foldlM (fun s arg => g.operand arg s) s

/-- Reads arguments. -/
def read (g : Grammar σ) : List Bytes → σ → Except Fault σ
  | [], s => .ok s
  | arg :: rest, s =>
    match Spelling.of arg with
    | .operand => (g.operand arg s).bind fun s => g.read rest s
    | .separator => g.readOperands rest s
    | .long name value =>
      match g.long? name with
      | none => refused (.unknownOption (longSpelling name))
      | some rule =>
        match rule.effect, value with
        | .switch apply, none => (apply s).bind fun s => g.read rest s
        | .switch apply, some v =>
          (apply s).bind fun _ => refused (.valueNotTaken (longSpelling name) v)
        | .value apply, some v => (apply v s).bind fun s => g.read rest s
        | .value apply, none =>
          match rest with
          | v :: rest => (apply v s).bind fun s => g.read rest s
          | [] => rule.missing (longSpelling name)
    | .shorts chain =>
      match g.readChain none chain s with
      | .error f => .error f
      | .ok (.finished s) => g.read rest s
      | .ok (.wanting spelled rule apply s) =>
        match rest with
        | v :: rest => (apply v s).bind fun s => g.read rest s
        | [] => rule.missing spelled

end Grammar

/-! ## The command -/

/-- The arguments of a command; `operandsOnly` if `--` came before its name. -/
structure Arguments where
  operandsOnly : Bool
  rest : List Bytes

/-- Reads the arguments of a command. -/
def Grammar.readArguments {σ : Type} (g : Grammar σ) (args : Arguments) (s : σ) : Except Fault σ :=
  if args.operandsOnly then g.readOperands args.rest s else g.read args.rest s

/-- The name of a command and the arguments behind it. Without one, or if it is asked for, the usage
of the program is shown. -/
def commandOf (usage : String) (args : List Bytes) : Except Fault (String × Arguments) :=
  let shown := .error (.ofComplaint (.usage (Text.trimmed usage)))
  match args with
  | [] => shown
  | arg :: rest =>
    match Spelling.of arg with
    | .operand => (textOf arg).map fun name => (name, ⟨false, rest⟩)
    | .separator =>
      match rest with
      | [] => shown
      | arg :: rest => (textOf arg).map fun name => (name, ⟨true, rest⟩)
    | .long name _ =>
      if Utf8.lossy name = "help" then shown else refused (.unknownOption (longSpelling name))
    | .shorts chain =>
      match Utf8.front chain with
      | .char 'h' _ => shown
      | .char c _ => refused (.unknownOption (shortSpelling c))
      | _ => refused (.unknownOption (shortSpelling '\uFFFD'))

end CompileFlags.CommandLine
