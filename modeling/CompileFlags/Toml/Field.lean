import CompileFlags.Toml.Document

/-!
# What a document holds

The tables of a document together, as the fields of its root. A table stands under the keys of its
header, in the place where the first header with those keys stands; its own pairs come where its own
header stands among the headers below it. A second header of the same table is a conflict, and
nothing after a conflict is read. Fields are kept from the last to the first.
-/

namespace CompileFlags.Toml

mutual

/-- What a key holds. -/
inductive Content where
  /-- A value, and the byte it starts at. -/
  | value (start : Nat) (v : Value)
  /-- A table with headers of its own or below it, its last field first; `defined` if it has had
  its own header. -/
  | table (defined : Bool) (fields : List Field)
  /-- An array of tables. -/
  | tables

/-- A key of a table and what it holds. -/
inductive Field where
  | field (key : String) (content : Content)
  /-- The table cannot be read on from here. -/
  | conflict (f : Failure)

end

instance : Inhabited Content := ⟨.tables⟩
instance : Inhabited Field := ⟨.field "" .tables⟩

/-- The fields that pairs make. -/
def fieldsOfPairs (pairs : List Pair) : List Field :=
  pairs.map fun pair => .field pair.1 (.value pair.2.1 pair.2.2)

/-- The content under a key, if headers have made it. -/
def Field.made? (key : String) : Field → Option Content
  | .field _ (.value _ _) => none
  | .field k content => if k = key then some content else none
  | .conflict _ => none

/-- Changes the content under a key that headers have made. -/
def changeField (key : String) (change : Content → Content) : List Field → List Field
  | [] => []
  | f :: rest =>
    match f.made? key with
    | some content => .field key (change content) :: rest
    | none => f :: changeField key change rest

/-- Changes the content under a key that headers have made, or adds `new` under the key. After a
conflict nothing is added. -/
def alterField (key : String) (change : Content → Content) (new : Content) (fields : List Field) :
    List Field :=
  match fields with
  | .conflict _ :: _ => fields
  | _ =>
    if fields.any fun f => (f.made? key).isSome then changeField key change fields
    else .field key new :: fields

/-- Adds a conflict, unless there is one already. -/
def addConflict (f : Failure) (fields : List Field) : List Field :=
  match fields with
  | .conflict _ :: _ => fields
  | _ => .conflict f :: fields

/-- What a second header makes of content that is there already. -/
def Content.addTable (t : Table) : Content → Content
  | .table true fields =>
    let name := String.intercalate "." t.header
    .table true (addConflict (.atByte t.start (.redefinition name)) fields)
  | .table false fields =>
    if t.isArray then .table false (addConflict (.atByte t.start .redefinedAsArray) fields)
    else .table true (fieldsOfPairs t.pairs ++ fields)
  | content => content

/-- What the header of a table makes where nothing was. -/
def Content.ofTable (t : Table) : Content :=
  if t.isArray then .tables else .table true (fieldsOfPairs t.pairs)

/-- The fields with one more table under keys that start here. -/
def addTable (t : Table) (key : String) : List String → List Field → List Field
  | [], fields => alterField key (Content.addTable t) (Content.ofTable t) fields
  | next :: more, fields =>
    alterField key
      (fun content =>
        match content with
        | .table defined inner => .table defined (addTable t next more inner)
        | content => content)
      (.table false (addTable t next more []))
      fields

/-- The fields of the root of a document, the last one first. -/
def Document.fields (d : Document) : List Field :=
  d.tables.foldl
    (fun fields t =>
      match t.header with
      | [] => fieldsOfPairs t.pairs ++ fields
      | key :: more => addTable t key more fields)
    []

/-! ## Reading contents -/

namespace Content

/-- What a message calls a content. -/
def describe : Content → String
  | value _ v => v.describe
  | table _ _ => "map"
  | tables => "sequence"

/-- Refuses a content that is not of the expected kind. A scalar or a table in braces or of dotted
keys is at fault where it starts; arrays and tables with headers do not know their place. -/
def mismatch {α : Type} (expected : String) (content : Content) : Except Failure α :=
  let problem := Problem.invalidType content.describe expected
  match content with
  | value _ (.array _) => .error (.unplaced problem)
  | value start _ => .error (.atByte start problem)
  | _ => .error (.unplaced problem)

/-- A boolean. -/
def toBool : Content → Except Failure Bool
  | value _ (.boolean b) => .ok b
  | content => content.mismatch "a boolean"

/-- A text. -/
def toText : Content → Except Failure String
  | value _ (.text s) => .ok s
  | content => content.mismatch "a string"

/-- A list of texts. -/
def toTexts : Content → Except Failure (List String)
  | value _ (.array items) => items.mapM fun item => (value item.1 item.2).toText
  | tables => (table true []).mismatch "a string"
  | content => content.mismatch "a sequence"

end Content

/-- Reads fields, the first one first, into a record: `known` are the names of its fields, `isSet`
says whether a field has been read before, and `read` puts the content of a known field into the
record. A failure inside a content is told under its key if the keys are `named`. -/
def readInOrder {α : Type} (known : List String) (isSet : String → α → Bool)
    (read : String → Content → α → Except Failure α) (named : Bool) : α → List Field →
    Except Failure α
  | record, [] => .ok record
  | _, .conflict f :: _ => .error f
  | record, .field key content :: rest =>
    if !known.contains key then .error (.unplaced (.unknownField key known))
    else if isSet key record then .error (.unplaced (.duplicateField key))
    else
      match read key content record with
      | .error f => .error (if named then f.under key else f)
      | .ok record => readInOrder known isSet read named record rest

/-- Reads fields as they are kept into a record that starts as `empty`. -/
def readFields {α : Type} (known : List String) (isSet : String → α → Bool)
    (read : String → Content → α → Except Failure α) (named : Bool) (empty : α)
    (fields : List Field) : Except Failure α :=
  readInOrder known isSet read named empty fields.reverse

end CompileFlags.Toml
