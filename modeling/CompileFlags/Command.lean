import CompileFlags.CommandLine.Commands
import CompileFlags.Project

/-!
# Commands of the program

What a run is asked to do, with everything that the command line says about it. Most commands do
something with a project, which they say where to find.

* `Command.ofArguments` reads the arguments of a run.
* `Loading.load` loads the project of a command.
-/

namespace CompileFlags

open CommandLine

/-- Where a project is found. -/
structure Loading where
  /-- Where the search for a catalog starts. -/
  search : Path
  /-- The file of the catalog, if it is given. -/
  file : Option Path
  /-- The root, if it is given. -/
  root : Option Path
  deriving DecidableEq, Repr

namespace Loading

/-- The current directory. -/
def here : Path := .ofString "."

/-- The directory that holds a file. -/
def directoryOf (file : String) : Path := (Path.ofString file).parent?.getD here

/-- Loads a project. -/
def load (files : Surroundings) (l : Loading) : Traced Project :=
  Project.load files (some l.search) l.file l.root

/-- The files that loading a project may ask for. -/
def places (files : Surroundings) (l : Loading) : List Path :=
  match l.file, files.absolute l.search with
  | some file, _ => [file]
  | none, .ok dir => Catalog.candidates dir
  | none, .error _ => []

end Loading

/-- What is done with a project. -/
inductive Task where
  /-- Write the table of its flags. -/
  | table (color : Color) (filter : Filter)
  /-- Write the language of a file. -/
  | classify (file : String)
  /-- Write the flags of a file. -/
  | flags (file : String) (layout : Layout) (noCache : Bool)
  /-- Answer requests. -/
  | serve

/-- What a run is asked to do. -/
inductive Command where
  | onProject (l : Loading) (task : Task)
  /-- Write flags with their paths resolved. -/
  | normalize (o : NormalizeOptions)
  /-- Write the version. -/
  | version

namespace Command

def ofCatalog (o : CatalogOptions) : Command :=
  .onProject ⟨Loading.here, o.catalog, o.root⟩ (.table o.color o.filter)

def ofClassify (file : String) (catalog : Option Path) : Command :=
  .onProject ⟨Loading.directoryOf file, catalog, none⟩ (.classify file)

def ofFlags (file : String) (o : FlagsOptions) : Command :=
  .onProject ⟨Loading.directoryOf file, o.catalog, o.root⟩ (.flags file o.layout o.noCache)

def ofServe (o : ServeOptions) : Command := .onProject ⟨Loading.here, o.catalog, o.root⟩ .serve

/-- The command with a name and what is behind it. -/
def ofName (name : String) (args : Arguments) : Except Fault Command :=
  match name with
  | "catalog" => (catalogCommand args).map ofCatalog
  | "classify" => (classifyCommand args).map fun c => ofClassify c.1 c.2
  | "flags" => (flagsCommand args).map fun c => ofFlags c.1 c.2
  | "normalize" => (normalizeCommand args).map .normalize
  | "serve" => (serveCommand args).map ofServe
  | "version" => (versionCommand args).map fun _ => .version
  | _ => .error (.ofComplaint (.unknownCommand name))

/-- The command that the arguments of a run ask for. -/
def ofArguments (args : List Bytes) : Except Fault Command :=
  (commandOf Help.program args).bind fun c => ofName c.1 c.2

end Command

end CompileFlags
