import CompileFlags.Program

/-!
# The command line

Runs the program on the files and streams of the system. The files that a command may ask for are
known before it runs, so they are read first; requests are answered as they come in.
-/

namespace CompileFlags.Main

/-- A failure of the system. -/
def failureOf : IO.Error → IoError
  | .noFileOrDirectory .. => .notFound
  | .inappropriateType _ 20 _ => .notADirectory
  | .inappropriateType _ 21 _ => .isADirectory
  | .resourceVanished 32 _ => .brokenPipe
  | e => .other (toString e) false

/-- What an action of the system comes to. -/
def attempt {α : Type} (action : IO α) : IO (Except IoError α) := do
  try
    pure (.ok (← action))
  catch e =>
    pure (.error (failureOf e))

/-- The contents of a file. -/
def readFile (p : Path) : IO (Except IoError Bytes) := do
  if p.back.any (·.contains 0) then pure (.error .zeroByte)
  else attempt (do pure (← IO.FS.readBinFile p.display).toList)

/-- Whether what was read is a file. A file that cannot be read is one. -/
def isFile : Except IoError Bytes → Bool
  | .ok _ => true
  | .error (.other ..) => true
  | .error _ => false

/-- Surroundings in which some files have been read. -/
def surroundingsOf (dir : Except IoError Path) (read : List (Path × Except IoError Bytes)) :
    Surroundings where
  currentDirectory := dir
  isFile := fun p => (read.lookup p).any isFile
  read := fun p => (read.lookup p).getD (.error .notFound)

/-- The surroundings of a command. -/
def surroundingsFor (command : Command) : IO Surroundings := do
  let dir ← attempt (do pure (Path.ofString (toString (← IO.currentDir))))
  let bare := surroundingsOf dir []
  let places := match command with
    | .onProject l _ => l.places bare
    | _ => []
  let read ← places.mapM fun p => do pure (p, ← readFile p)
  pure (surroundingsOf dir read)

/-- Whether a log shows an event unless more is asked for. -/
def isShown (e : Event) : Bool :=
  match e.level with
  | .warn | .error => true
  | _ => false

/-- Writes what a run leaves on its output and in its log. -/
def emit (r : Run) : IO (Except IoError Unit) := do
  let err ← IO.getStderr
  for e in r.events.filter isShown do
    err.putStrLn e.line
  let out ← IO.getStdout
  attempt (do out.write ⟨r.output.toArray⟩; out.flush)

/-- Tells how a run ended, with the causes listed if `FLAGCONF_DETAIL` is set to 1. The result is
its exit code. The variable is named for the program and not for the runtime under it: variables of
a runtime ask for traces of calls, and no such trace goes with the causes here. -/
def finish (r : Run) : IO UInt32 := do
  let detailed := (← IO.getEnv "FLAGCONF_DETAIL") == some "1"
  (← IO.getStderr).putStr (r.complaint detailed)
  pure (UInt32.ofNat r.exitCode)

/-- Carries out a run, which is given the output that it has. If that fails, the run ends as it does
on an output that fails at once. -/
def carryOut (r : Sink → Run) : IO UInt32 := do
  match ← emit (r .unlimited) with
  | .ok () => finish (r .unlimited)
  | .error e => finish { r (.bytes 0 e) with output := [] }

/-- Answers requests as they come in, after `before` lines and the start of one more. Input is taken
byte by byte, so that a line is answered without waiting for the next. -/
partial def serveFrom (p : Project) (before : Nat) (line : ByteArray) : IO UInt32 := do
  match ← attempt ((← IO.getStdin).read 1) with
  | .error e => carryOut (p.serveLines (some e) before [])
  | .ok input =>
    if input.isEmpty then
      carryOut (p.serveLines none before (terminatedPieces (· == newline) line.toList))
    else if input.toList = [newline] then
      match ← emit (p.serveLines none before [line.toList] .unlimited) with
      | .ok () => serveFrom p (before + 1) .empty
      | .error e => finish (p.serveLines none before [line.toList] (.bytes 0 e))
    else serveFrom p before (line ++ input)

/-- Runs a command. No build step looks for the revision of the sources, so none is known. -/
def runCommand (command : Command) : IO UInt32 := do
  let files ← surroundingsFor command
  let terminal ← (← IO.getStdout).isTty
  match command with
  | .onProject l .serve =>
    match (l.load files).result with
    | .ok p => serveFrom p 0 .empty
    | .error f => finish (.failed f)
  | _ => carryOut fun output =>
    Program.runCommand { files, input := { data := [] }, output, terminal } command

/-- Runs the program. -/
def run (args : List String) : IO UInt32 :=
  match Command.ofArguments (args.map Utf8.encode) with
  | .ok command => runCommand command
  | .error f => finish (.failed f)

end CompileFlags.Main

/-- The program. -/
def main (args : List String) : IO UInt32 := CompileFlags.Main.run args
