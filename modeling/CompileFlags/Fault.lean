import CompileFlags.FileSystem
import CompileFlags.Json.Error
import CompileFlags.Pattern.Error
import CompileFlags.Text.Quoted
import CompileFlags.Toml.Error

/-!
# Faults

Why something could not be done: a cause, and the contexts it came up in, the widest first. A fault
is told in one line, or with its causes listed below its first message.
-/

namespace CompileFlags

namespace CommandLine

/-- What is wrong with the arguments of a run. Options are named as they are spelled. -/
inductive Error where
  /-- An option that takes no value was given one. -/
  | valueNotTaken (option : String) (value : Bytes)
  /-- The arguments end where an option takes a value. -/
  | valueMissing (option : String)
  | unknownOption (option : String)
  | unexpectedArgument (argument : Bytes)
  /-- An argument that has to be a text is none. -/
  | notText (argument : Bytes)
  deriving DecidableEq, Repr

/-- The message of refused arguments. -/
def Error.message : Error → String
  | valueNotTaken option value =>
    "unexpected argument for option '" ++ option ++ "': " ++ Text.quotedBytes value
  | valueMissing option => "missing argument for option '" ++ option ++ "'"
  | unknownOption option => "invalid option '" ++ option ++ "'"
  | unexpectedArgument argument => "unexpected argument " ++ Text.quotedBytes argument
  | notText argument => "argument is invalid unicode: " ++ Text.quotedBytes argument

end CommandLine

/-- What is wrong with how the program is used or set up. -/
inductive Complaint where
  /-- The user is shown how a command is used. -/
  | usage (text : String)
  | unknownCommand (name : String)
  | unknownColor (name : String)
  | unknownFormat (name : String)
  /-- The value of an option is none that it can have. -/
  | optionValue (option : String) (complaint : Complaint)
  | fileMissing
  | fileRepeated
  | rootAndNoRoot
  | rootNotText (dir : Path)
  | noParent (file : Path)
  | cFileIsPath (name : String)
  deriving DecidableEq, Repr

/-- What a message says about a complaint. -/
def Complaint.message : Complaint → String
  | usage text => text
  | unknownCommand name => "unrecognized command '" ++ name ++ "'"
  | unknownColor name =>
    "unrecognized color config '" ++ name ++ "', must be one of auto, always or never."
  | unknownFormat name =>
    "unrecognized output format '" ++ name ++ "', must be one of json or lines."
  | optionValue option complaint => option ++ ": " ++ complaint.message
  | fileMissing => "missing file name"
  | fileRepeated => "only one file is accepted, but multiple were given"
  | rootAndNoRoot => "-r/--root and --no-root cannot be used together"
  | rootNotText dir => "project root '" ++ dir.display ++ "' is not valid UTF-8"
  | noParent file => "'" ++ file.display ++ "' has no parent directory"
  | cFileIsPath name => "c-files entry '" ++ name ++ "' must be a file name, not a path"

/-- The innermost reason of a fault. -/
inductive Cause where
  | toml (e : Toml.Error)
  | pattern (e : Pattern.Error)
  | json (e : Json.Error)
  | arguments (e : CommandLine.Error)
  | io (e : IoError)
  | utf8 (e : Utf8.Malformed)
  | complaint (c : Complaint)
  deriving DecidableEq, Repr

/-- What a message says about a cause. -/
def Cause.message : Cause → String
  | toml e => e.message
  | pattern e => e.message
  | json e => e.message
  | arguments e => e.message
  | io e => e.message
  | utf8 e => e.message
  | complaint c => c.message

/-- What was being done when a fault came up. -/
inductive Context where
  | workingDirectory
  | readingCatalog (path : Path)
  | invalidCatalog (path : Path)
  | catalogNotText
  | decodingCatalog
  | includePattern
  | excludePattern
  /-- The value of an option was being read. -/
  | option (name : String)
  | writingOutput
  | readingRequest
  | writingReply
  deriving DecidableEq, Repr

/-- What a message says about a context. -/
def Context.message : Context → String
  | workingDirectory => "could not get current working directory"
  | readingCatalog path => "failed to read catalog from " ++ path.display
  | invalidCatalog path => "invalid catalog " ++ path.display
  | catalogNotText => "catalog is not valid UTF-8"
  | decodingCatalog => "error decoding TOML"
  | includePattern => "whitelist regex is not valid"
  | excludePattern => "blacklist regex is not valid"
  | option name => name
  | writingOutput => "failed to write output"
  | readingRequest => "failed to read request from stdin"
  | writingReply => "failed to write response to stdout"

/-- A cause and its contexts, the widest first. -/
structure Fault where
  contexts : List Context
  cause : Cause
  deriving DecidableEq, Repr

namespace Fault

/-- A fault without contexts. -/
def ofCause (cause : Cause) : Fault := ⟨[], cause⟩

/-- A complaint as a fault. -/
def ofComplaint (c : Complaint) : Fault := ofCause (.complaint c)

/-- Puts a fault into a wider context. -/
def within (context : Context) (f : Fault) : Fault := { f with contexts := context :: f.contexts }

/-- The messages of a fault, the widest first. -/
def messages (f : Fault) : List String := f.contexts.map Context.message ++ [f.cause.message]

/-- A fault in one line. -/
def message (f : Fault) : String := String.intercalate ": " f.messages

/-- An entry of a list of causes: the cause with its number if there are several, and its further
lines indented as far as the first. -/
def causeEntry (several : Bool) (entry : String × Nat) : String :=
  let number := toString entry.2
  let lead :=
    if several then String.ofList (List.replicate (5 - number.length) ' ') ++ number ++ ": "
    else "    "
  let indent := if several then "       " else "    "
  lead ++ String.intercalate ("\n" ++ indent) (entry.1.splitOn "\n")

/-- A fault with its causes on lines of their own. -/
def detailed (f : Fault) : String :=
  match f.messages with
  | [] => ""
  | [only] => only
  | first :: causes =>
    let lines := causes.zipIdx.map (causeEntry (1 < causes.length))
    first ++ "\n\nCaused by:\n" ++ String.intercalate "\n" lines

end Fault

/-- Puts the fault of a result into a wider context. -/
def inContext {α : Type} (context : Context) (r : Except Fault α) : Except Fault α :=
  r.mapError (Fault.within context)

end CompileFlags
