import CompileFlags.Fault
import CompileFlags.Language
import CompileFlags.Toml.Field

/-!
# Catalogs

The flags of a project: those that all of its files share, those that each language adds, the names
of the files that are C, and whether flags may be kept for later. A catalog is written as a document
with a fixed shape; `Catalog.decode` reads one.
-/

namespace CompileFlags

/-- The flags of a project. -/
structure Catalog where
  /-- The flags of all files, in the order in which the compiler gets them. -/
  flags : List String
  /-- The flags that a C file has after those. -/
  c : List String
  /-- The flags that a C++ file has after those. -/
  cpp : List String
  /-- The leaves of the names of C files. -/
  cFiles : List String
  /-- Whether the flags of a file may be kept without asking again. -/
  cache : Bool
  /-- The file that the catalog was read from, if any. -/
  path : Option Path
  deriving DecidableEq, Repr

namespace Catalog

/-- The name of the file that a catalog is looked for in. -/
def fileName : String := ".flagconf.toml"

/-- The flags of a C file where a catalog gives none. -/
def defaultC : List String := ["-std=c99", "-x", "c"]

/-- The flags of a C++ file where a catalog gives none. -/
def defaultCpp : List String := ["-std=c++11", "-x", "c++"]

/-- The catalog of a project that has none. -/
def builtIn : Catalog where
  flags :=
    ["-DARQ_ASSERTS_ENABLED=1", "-DARQ_COMPILE_CRC32=1", "-DARQ_USE_C_STDLIB=1",
      "-DARQ_LITTLE_ENDIAN_CPU=1", "-Wall", "-Wextra", "-Wunreachable-code", "-Wshadow",
      "-Wcast-align", "-Wcast-qual", "-Wstrict-aliasing", "-Wmissing-braces",
      "-I", ".", "-I", "unit_tests", "-I", "functional_tests",
      "-I", "external/CppUTest/src/CppUTest_external/include"]
  c := defaultC
  cpp := defaultCpp
  cFiles := ["arq.h"]
  cache := true
  path := none

/-- The flags that a language adds. -/
def languageFlags (catalog : Catalog) : Language → List String
  | .c => catalog.c
  | .cpp => catalog.cpp

/-! ## The shape of a catalog -/

/-- A catalog as it is written, with the fields that are there. -/
structure Written where
  flags : Option (List String) := none
  cFiles : Option (List String) := none
  cache : Option Bool := none
  c : Option (List String) := none
  cpp : Option (List String) := none
  deriving DecidableEq, Repr

namespace Written

open Toml (Content Failure Field Problem)

/-- The names of the fields of a catalog. -/
def known : List String := ["flags", "c-files", "cache", "c", "cpp"]

/-- Whether a field is there. -/
def isSet (field : String) (w : Written) : Bool :=
  match field with
  | "flags" => w.flags.isSome
  | "c-files" => w.cFiles.isSome
  | "cache" => w.cache.isSome
  | "c" => w.c.isSome
  | "cpp" => w.cpp.isSome
  | _ => false

/-- What a message calls the flags of a language. -/
def dialectName : String := "struct WireDialect"

/-- The field of the flags of a language. -/
def dialectField : String := "flags"

/-- The name under which a date holds its text. -/
def dateField : String := "$__toml_private_datetime"

/-- The flags of a language from the fields of its table, the only one of which they are. -/
def dialectOfFields (named : Bool) (fields : List Field) : Except Failure (List String) := do
  let flags ← Toml.readFields [dialectField] (fun _ (flags : Option (List String)) => flags.isSome)
    (fun _ content _ => content.toTexts.map some) named none fields
  match flags with
  | some flags => .ok flags
  | none => .error (.unplaced (.missingField dialectField))

/-- The flags of a language: a table with them as its field, or an array with them as its only
item. -/
def dialect : Content → Except Failure (List String)
  | .table _ fields => dialectOfFields true fields
  | .tables => (Content.table true []).mismatch "a sequence"
  | .value start (.table _ pairs) =>
    (dialectOfFields false (Toml.fieldsOfPairs pairs)).mapError (Failure.place start)
  | .value start .date =>
    .error (.atByte start (.unknownField dateField [dialectField]))
  | .value _ (.array []) => .error (.unplaced (.invalidLength 0 (dialectName ++ " with 1 element")))
  | .value _ (.array (item :: more)) => do
    let flags ← (Content.value item.1 item.2).toTexts
    if more.isEmpty then .ok flags
    else .error (.unplaced (.invalidLength (more.length + 1) "1 element in sequence"))
  | content => content.mismatch dialectName

/-- Puts the content of a field into a catalog. -/
def read (field : String) (content : Content) (w : Written) : Except Failure Written :=
  match field with
  | "flags" => do .ok { w with flags := some (← content.toTexts) }
  | "c-files" => do .ok { w with cFiles := some (← content.toTexts) }
  | "cache" => do .ok { w with cache := some (← content.toBool) }
  | "c" => do .ok { w with c := some (← dialect content) }
  | "cpp" => do .ok { w with cpp := some (← dialect content) }
  | _ => .ok w

/-- A catalog as the fields of a document. -/
def ofFields (fields : List Field) : Except Failure Written :=
  Toml.readFields known isSet read true {} fields

/-- A catalog as a document. A failure without a place is found at the last table. -/
def ofDocument (d : Toml.Document) : Except Failure Written :=
  (ofFields d.fields).mapError fun f =>
    match d.lastStart? with
    | some start => f.place start
    | none => f

/-- A catalog as a text. -/
def ofText (text : String) : Except Toml.Error Written :=
  ((Toml.Document.ofText text).bind ofDocument).mapError (Failure.locate text)

end Written

/-! ## Reading a catalog -/

/-- Whether a name can be the leaf of a file name: it is not empty and holds no separator. -/
def isLeaf (name : String) : Bool := !name.isEmpty && !name.toList.any FileName.isSeparator

/-- The catalog that is written, with what is not there filled in. -/
def ofWritten (w : Written) : Except Fault Catalog :=
  let cFiles := w.cFiles.getD []
  match cFiles.find? fun name => !isLeaf name with
  | some name => .error (.ofComplaint (.cFileIsPath name))
  | none => .ok {
      flags := w.flags.getD []
      c := w.c.getD defaultC
      cpp := w.cpp.getD defaultCpp
      cFiles := cFiles
      cache := w.cache.getD true
      path := none }

/-- The catalog in the contents of a file. -/
def decode (data : Bytes) : Except Fault Catalog := do
  let text ← inContext .catalogNotText ((Utf8.decode data).mapError fun e => .ofCause (.utf8 e))
  let written ← inContext .decodingCatalog
    ((Written.ofText text).mapError fun e => .ofCause (.toml e))
  ofWritten written

end Catalog

end CompileFlags
