import CompileFlags.Language
import CompileFlags.Path
import CompileFlags.Text.Quoted

/-!
# Events

What a run tells its log: events in the order in which they happen, each of a level.
-/

namespace CompileFlags

/-- How much an event matters. -/
inductive Level where
  | trace
  | debug
  | info
  | warn
  | error
  deriving DecidableEq, Repr

/-- The name of a level. -/
def Level.name : Level → String
  | trace => "TRACE"
  | debug => "DEBUG"
  | info => "INFO"
  | warn => "WARN"
  | error => "ERROR"

/-- Something that happens in a run. -/
inductive Event where
  /-- A path was resolved. -/
  | resolved (written result : String)
  | lookingAt (candidate : Path)
  | foundAt (candidate : Path)
  | noCatalogFound
  | catalogLoaded (path : Path)
  | rootChosen (root : String)
  | usingBuiltIn
  | usingCatalog (path : Path)
  | ignoringKeys (keys : List String)
  | ignoringOptions (keys : List String)
  | parsedAs (file : String) (language : Language)
  /-- A line held no request. -/
  | refused (line : Nat) (reason : String)
  deriving DecidableEq, Repr

namespace Event

/-- The level of an event. -/
def level : Event → Level
  | resolved _ _ | lookingAt _ => .trace
  | refused _ _ => .warn
  | _ => .debug

/-- The message of an event. -/
def message : Event → String
  | resolved written result => "resolved '" ++ written ++ "' to '" ++ result ++ "'"
  | lookingAt candidate => "looking for catalog at " ++ candidate.display
  | foundAt candidate => "found catalog at " ++ candidate.display
  | noCatalogFound => "no catalog file found, using built-in catalog"
  | catalogLoaded path => "loaded catalog from " ++ path.display
  | rootChosen root => "project root: " ++ root
  | usingBuiltIn => "handler using built-in catalog"
  | usingCatalog path => "handler using catalog " ++ path.display
  | ignoringKeys keys => "ignoring unrecognized request keys: " ++ Text.quotedList keys
  | ignoringOptions keys => "ignoring unrecognized request options: " ++ Text.quotedList keys
  | parsedAs file language => "'" ++ file ++ "' will be parsed as " ++ language.name
  | refused line reason => "request on line " ++ toString line ++ ": " ++ reason

/-- An event as a line of a log. -/
def line (e : Event) : String := e.level.name ++ " " ++ e.message

end Event

end CompileFlags
