import CompileFlags.Json.Text
import CompileFlags.Project
import CompileFlags.Request

/-!
# Answers

What a project says to a request: the flags of the file, which are those of all files and then those
of the file's language, and whether they may be kept. An answer, or the reason why there is none, is
written as an object on one line.
-/

namespace CompileFlags

/-- The flags of a file, and whether they may be kept. -/
structure Answer where
  flags : List String
  cache : Bool
  deriving DecidableEq, Repr

/-- An answer as it is written. -/
def Answer.written (a : Answer) : String :=
  .ofList (Json.objectOf [("flags", Json.texts a.flags), ("do_cache", Json.boolean a.cache)])

/-- What comes back for a request. -/
inductive Reply where
  | answer (a : Answer)
  /-- There was no request to answer. -/
  | refusal (reason : String)
  deriving DecidableEq, Repr

/-- A reply as it is written. -/
def Reply.written : Reply → String
  | answer a => a.written
  | refusal reason => .ofList (Json.objectOf [("error", Json.Text.quote reason)])

namespace Project

/-- The language of a file in a project. -/
def languageOf (p : Project) (file : String) : Language := .ofFile file p.catalog.cFiles

/-- The flags of a file of a language. -/
def flagsOf (p : Project) (l : Language) : List String :=
  normalize p.catalog.flags p.root ++ p.catalog.languageFlags l

/-- The answer to a request. -/
def answer (p : Project) (r : Request) : Answer where
  flags := p.flagsOf (p.languageOf r.filename)
  cache := r.options.cache.getD p.catalog.cache

/-- What the log is told when a project starts to answer. -/
def startEvent (p : Project) : Event :=
  match p.catalog.path with
  | none => .usingBuiltIn
  | some path => .usingCatalog path

/-- What the log is told of an answer. -/
def answerEvents (p : Project) (r : Request) : List Event :=
  (if r.ignored.isEmpty then [] else [.ignoringKeys (r.ignored.map Prod.fst)]) ++
    (if r.options.ignored.isEmpty then []
      else [.ignoringOptions (r.options.ignored.map Prod.fst)]) ++
    .parsedAs r.filename (p.languageOf r.filename) ::
    (resolutions p.catalog.flags p.root).map fun res => .resolved res.1 res.2

end Project

end CompileFlags
