import CompileFlags.Path

/-!
# Files

What a run can see of its surroundings: the current directory, which files exist, and what is in
them, each with the ways in which asking can fail. `Directory` is a whole tree of files, and a
`Workplace` is such a tree with a place in it to work from; `Workplace.surroundings` answers every
question about it the way the system does, `.` and `..` resolved while walking.
-/

namespace CompileFlags

/-- A failure of the system. -/
inductive IoError where
  | notFound
  | notADirectory
  | isADirectory
  | brokenPipe
  | nameTooLong
  /-- A path with a zero byte names no file. -/
  | zeroByte
  /-- Another failure in its own words; `closed` if it says that nobody reads any more. -/
  | other (text : String) (closed : Bool)
  deriving DecidableEq, Repr

namespace IoError

/-- The message of a failure. -/
def message : IoError → String
  | notFound => "No such file or directory (os error 2)"
  | notADirectory => "Not a directory (os error 20)"
  | isADirectory => "Is a directory (os error 21)"
  | brokenPipe => "Broken pipe (os error 32)"
  | nameTooLong => "File name too long (os error 36)"
  | zeroByte => "file name contained an unexpected NUL byte"
  | other text _ => text

/-- Whether the failure says that nobody reads what is written. -/
def isClosed : IoError → Bool
  | brokenPipe => true
  | other _ closed => closed
  | _ => false

end IoError

/-- What a run can ask about the files around it. -/
structure Surroundings where
  /-- The absolute path of the current directory. -/
  currentDirectory : Except IoError Path
  /-- Whether a path leads to a file that is no directory. -/
  isFile : Path → Bool
  /-- The contents of the file that a path leads to. -/
  read : Path → Except IoError Bytes

/-! ## Trees of files -/

/-- A file, or a directory with the names in it. -/
inductive Node where
  | file (data : Bytes)
  | directory (entries : List (Bytes × Node))
  deriving Inhabited

namespace Node

/-- What a name in a directory leads to. -/
def child? (name : Bytes) : Node → Option Node
  | .file _ => none
  | .directory entries => entries.lookup name

/-- What the names lead to, outermost first. -/
def find? (node : Node) : List Bytes → Option Node
  | [] => some node
  | name :: rest => (node.child? name).bind fun child => find? child rest

/-- A tree in which the names lead to `leaf`, with directories made on the way. -/
def insert (leaf : Node) : List Bytes → Option Node → Node
  | [], _ => leaf
  | name :: rest, node =>
    let entries := match node with
      | some (.directory entries) => entries
      | _ => []
    .directory ((name, insert leaf rest (entries.lookup name)) ::
      entries.filter fun entry => entry.1 != name)

end Node

/-- A tree of files and the directory to work in, named from the root. A working directory that is
not in the tree has been removed. -/
structure Workplace where
  tree : Node
  current : List Bytes

/-- Where a walk through a tree has come to: the names on the way from the root, the last one first,
each with what it leads to, if that is there. -/
abbrev Trail := List (Bytes × Option Node)

namespace Workplace

/-- The longest name, and the shortest path that is too long. -/
def maxName : Nat := 255
def minTooLong : Nat := 4096

/-- What a trail leads to. -/
def nodeAt (w : Workplace) : Trail → Option Node
  | [] => some w.tree
  | (_, node) :: _ => node

/-- The trail along names, outermost first. -/
def trailTo (w : Workplace) (names : List Bytes) : Trail :=
  names.foldl (fun trail name => (name, (w.nodeAt trail).bind (Node.child? name)) :: trail) []

/-- One step on a trail. A place that has been removed is an empty directory. -/
def step (w : Workplace) (trail : Trail) (next : Path.Step) : Except IoError Trail :=
  match w.nodeAt trail with
  | some (.file _) => .error .notADirectory
  | here =>
    match next with
    | .here => .ok trail
    | .up => .ok trail.tail
    | .down name =>
      if here.isNone then .error .notFound
      else if maxName < name.length then .error .nameTooLong
      else
        match here.bind (Node.child? name) with
        | some child => .ok ((name, some child) :: trail)
        | none => .error .notFound

/-- All the steps on a trail. -/
def walk (w : Workplace) : Trail → List Path.Step → Except IoError Trail
  | trail, [] => .ok trail
  | trail, next :: rest =>
    match w.step trail next with
    | .ok trail => w.walk trail rest
    | .error e => .error e

/-- The trail along a path. -/
def resolve (w : Workplace) (p : Path) : Except IoError Trail :=
  if p.back.any (·.contains 0) then .error .zeroByte
  else if p.size = 0 then .error .notFound
  else if minTooLong ≤ p.size then .error .nameTooLong
  else w.walk (if p.isAbsolute then [] else w.trailTo w.current) p.steps

/-- Whether a path leads to a file. -/
def isFile (w : Workplace) (p : Path) : Bool :=
  match w.resolve p with
  | .ok trail =>
    match w.nodeAt trail with
    | some (.file _) => true
    | _ => false
  | .error _ => false

/-- The contents of the file that a path leads to. -/
def read (w : Workplace) (p : Path) : Except IoError Bytes :=
  match w.resolve p with
  | .ok trail =>
    match w.nodeAt trail with
    | some (.file data) => .ok data
    | _ => .error .isADirectory
  | .error e => .error e

/-- The absolute path along names, outermost first. -/
def pathOf (names : List Bytes) : Path :=
  .ofBytes (Path.slash :: joinPieces [Path.slash] names)

/-- The answers about a tree of files. -/
def surroundings (w : Workplace) : Surroundings where
  currentDirectory :=
    match w.tree.find? w.current with
    | some _ => .ok (pathOf w.current)
    | none => .error .notFound
  isFile := w.isFile
  read := w.read

end Workplace

end CompileFlags
