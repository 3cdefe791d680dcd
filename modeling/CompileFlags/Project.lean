import CompileFlags.Catalog
import CompileFlags.Normalize
import CompileFlags.Traced

/-!
# Projects

A catalog and the root that its paths are resolved against. `Project.load` finds both: the catalog
is read from a given file, or from the nearest one above a directory, or is the built-in one; the
root is given, or the directory of the catalog's file, or the current directory.

* `discoverIn_result` — the search ends at the first candidate that is a file.
-/

namespace CompileFlags

/-! ## Absolute paths and roots -/

/-- A path seen from the current directory, which has to be known only for a relative path. -/
def Surroundings.absolute (s : Surroundings) (p : Path) : Except Fault Path :=
  if p.isAbsolute then .ok p
  else
    match s.currentDirectory with
    | .ok dir => .ok (dir.join p)
    | .error e => inContext .workingDirectory (.error (.ofCause (.io e)))

namespace Root

/-- A directory as a root. It need not exist, but its absolute path has to be a text. -/
def ofDirectory (s : Surroundings) (dir : Path) : Except Fault Root := do
  let dir ← s.absolute dir
  match Utf8.decode dir.bytes with
  | .ok text => .ok ⟨text⟩
  | .error _ => .error (.ofComplaint (.rootNotText dir))

/-- The directory that holds a file as a root. -/
def containing (s : Surroundings) (file : Path) : Except Fault Root := do
  let file ← s.absolute file
  match file.parent? with
  | some dir => ofDirectory s dir
  | none => .error (.ofComplaint (.noParent file))

end Root

/-! ## Finding and reading catalogs -/

namespace Catalog

/-- The catalog in a file. -/
def ofFile (s : Surroundings) (path : Path) : Traced Catalog := do
  let data ← .quiet (inContext (.readingCatalog path)
    ((s.read path).mapError fun e => .ofCause (.io e)))
  let catalog ← .quiet (inContext (.invalidCatalog path) (decode data))
  .tell (.catalogLoaded path)
  pure { catalog with path := some path }

/-- The places of a catalog for a directory, the nearest first. -/
def candidates (dir : Path) : List Path := dir.ancestors.map fun d => d.join (.ofString fileName)

/-- The first candidate that is a file. -/
def discoverIn (s : Surroundings) : List Path → Traced (Option Path)
  | [] => pure none
  | candidate :: rest => do
    .tell (.lookingAt candidate)
    if s.isFile candidate then
      .tell (.foundAt candidate)
      pure (some candidate)
    else discoverIn s rest

/-- The nearest catalog file in a directory or above it. -/
def discover (s : Surroundings) (dir : Path) : Traced (Option Path) := discoverIn s (candidates dir)

theorem discoverIn_result (s : Surroundings) (places : List Path) :
    (discoverIn s places).result = .ok (places.find? s.isFile) := by
  induction places with
  | nil => rfl
  | cons place rest ih =>
    by_cases h : s.isFile place = true
    · simp [discoverIn, List.find?, h, Traced.tell, Except.bind]
    · simp [discoverIn, List.find?, h, Traced.tell, Except.bind, ih]

end Catalog

/-! ## Projects -/

/-- The catalog of a project and the directory its paths are resolved against, if they are. -/
structure Project where
  root : Option Root
  catalog : Catalog
  deriving DecidableEq, Repr

namespace Project

/-- The file to read the catalog from, if there is one: the given file, or else the nearest one for
the directory to search. -/
def catalogFile (s : Surroundings) (search file : Option Path) : Traced (Option Path) :=
  match file, search with
  | some file, _ => pure (some file)
  | none, none => pure none
  | none, some dir => do Catalog.discover s (← .quiet (s.absolute dir))

/-- The catalog in a file, or the built-in one without a file. -/
def catalogOf (s : Surroundings) : Option Path → Traced Catalog
  | some file => Catalog.ofFile s file
  | none => do
    .tell .noCatalogFound
    pure .builtIn

/-- The root that is asked for, or the directory of the catalog's file, or else the current one. -/
def rootOf (s : Surroundings) (root file : Option Path) : Except Fault Root :=
  match root, file with
  | some dir, _ => Root.ofDirectory s dir
  | none, some file => Root.containing s file
  | none, none => Root.ofDirectory s (.ofString ".")

/-- Loads a project. -/
def load (s : Surroundings) (search file root : Option Path) : Traced Project := do
  let file ← catalogFile s search file
  let catalog ← catalogOf s file
  let root ← .quiet (rootOf s root file)
  .tell (.rootChosen root.text)
  pure { root := some root, catalog }

end Project

end CompileFlags
