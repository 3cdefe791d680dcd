import CompileFlags.Command
import CompileFlags.Session
import CompileFlags.Table

/-!
# The program

A run of the program: its arguments name a command, and the command writes what it is asked for or
fails. A run that fails says why, and ends with another exit code than one that does not.

* `Program.run` is the whole run.
* `Run.exitCode` and `Run.complaint` are what is left of it besides its output.
-/

namespace CompileFlags

/-- What a run works with. -/
structure Console where
  files : Surroundings
  input : Source
  output : Sink
  /-- Whether the output goes to a terminal. -/
  terminal : Bool := false
  /-- The revision of the sources that the program was built from, if the build found one. -/
  revision : Option String := none

namespace Program

open CommandLine

/-- The number of the program's version. -/
def versionNumber : String := "0.0.1"

/-- The version of the program, with the revision of its sources if that is known. -/
def version : Option String → String
  | none => versionNumber
  | some revision => versionNumber ++ " (rev " ++ revision ++ ")"

/-- The request for the flags of a file. -/
def requestOf (file : String) (noCache : Bool) : Request where
  filename := file
  options := { cache := if noCache then some false else none }

/-- The lines that tell an answer. -/
def answerLines (layout : Layout) (a : Answer) : List String :=
  match layout with
  | .json => [a.written]
  | .lines => a.flags

/-- The table of those flags of a project that pass the filter. -/
def tableOf (colored : Bool) (filter : Filter) (p : Project) : String :=
  Row.table colored (p.rows.filter fun r => filter.accepts r.written)

/-- What the log is told of resolved paths. -/
def resolvedEvents (flags : List String) (root : Option Root) : List Event :=
  (resolutions flags root).map fun r => .resolved r.1 r.2

/-- Does something with a project. -/
def runTask (c : Console) (p : Project) : Task → Run
  | .table color filter =>
    (Run.ofText (tableOf (color.applies c.terminal) filter p) c.output).after []
      (resolvedEvents p.catalog.flags p.root)
  | .classify file =>
    (Run.ofLines [(p.languageOf file).name] c.output).after [] [p.startEvent]
  | .flags file layout noCache =>
    let request := requestOf file noCache
    (Run.ofLines (answerLines layout (p.answer request)) c.output).after []
      (p.startEvent :: p.answerEvents request)
  | .serve => (p.serve c.input c.output).after [] [p.startEvent]

/-- The root that flags on the command line are resolved against. -/
def rootOf (files : Surroundings) (o : NormalizeOptions) : Except Fault (Option Root) :=
  if o.noRoot then .ok none
  else (Root.ofDirectory files (o.root.getD Loading.here)).map some

/-- Writes flags with their paths resolved. -/
def resolve (c : Console) (o : NormalizeOptions) : Run :=
  .ofTraced (.quiet (rootOf c.files o)) fun root =>
    (Run.ofLines (normalize o.flags root) c.output).after [] (resolvedEvents o.flags root)

/-- Runs a command. -/
def runCommand (c : Console) : Command → Run
  | .onProject l task => .ofTraced (l.load c.files) fun p => runTask c p task
  | .normalize o => resolve c o
  | .version => Run.ofLines [version c.revision] c.output

/-- Runs the program with arguments. -/
def run (c : Console) (args : List Bytes) : Run :=
  .ofTraced (.quiet (Command.ofArguments args)) (runCommand c)

end Program

namespace Run

/-- The exit code of a run. -/
def exitCode (r : Run) : Nat :=
  match r.ending with
  | .ok () => 0
  | .error _ => 1

/-- What a run says about its failure, in one line or in detail. -/
def complaint (detailed : Bool) (r : Run) : String :=
  match r.ending with
  | .ok () => ""
  | .error f => (if detailed then f.detailed else f.message) ++ "\n"

end Run

end CompileFlags
