import CompileFlags.Json.Tree

/-!
# Requests

A question: which flags does a file have? It is written as an object with the name of the file and,
if there are any, options. Only one option is understood; whatever else is there is kept aside.
-/

namespace CompileFlags

/-- What may be asked for besides. -/
structure Options where
  /-- Whether the flags may be kept, if the request decides that. -/
  cache : Option Bool := none
  /-- The options that are not understood. -/
  ignored : Json.Fields := []
  deriving Inhabited

/-- A question for the flags of a file. -/
structure Request where
  filename : String
  options : Options := {}
  /-- The members that are not understood. -/
  ignored : Json.Fields := []
  deriving Inhabited

namespace Options

open Json (Failure Members setField)

/-- The options from the members of an object. `seen` says whether the cache option was among those
before. -/
def ofMembers (seen : Bool) (o : Options) : Members → Except Failure Options
  | .closed _ => .ok o
  | .broken f => .error f
  | .member key value rest =>
    if key.name = "cache" then
      if seen then .error ⟨.duplicateField "cache", key.mark⟩
      else do
        let cache ← value.toBool?
        ofMembers true { o with cache } rest
    else do
      let value ← value.toValue
      ofMembers seen { o with ignored := setField key.name value o.ignored } rest

/-- The options in a tree. -/
def ofTree (t : Json.Tree) : Except Failure Options := do
  let members ← t.toMembers "struct RequestOptions"
  ofMembers false {} members

end Options

namespace Request

open Json (Failure Members setField)

/-- A request of which some members have been read. -/
structure Draft where
  filename : Option String := none
  options : Option Options := none
  ignored : Json.Fields := []

/-- A request from the members of an object. -/
def ofMembers (d : Draft) : Members → Except Failure Request
  | .closed stop =>
    match d.filename with
    | some filename => .ok { filename, options := d.options.getD {}, ignored := d.ignored }
    | none => .error ⟨.missingField "filename", stop⟩
  | .broken f => .error f
  | .member key value rest =>
    if key.name = "filename" then
      if d.filename.isSome then .error ⟨.duplicateField "filename", key.mark⟩
      else do
        let filename ← value.toText
        ofMembers { d with filename := some filename } rest
    else if key.name = "options" then
      if d.options.isSome then .error ⟨.duplicateField "options", key.mark⟩
      else do
        let options ← Options.ofTree value
        ofMembers { d with options := some options } rest
    else do
      let value ← value.toValue
      ofMembers { d with ignored := setField key.name value d.ignored } rest

/-- The request in a tree. -/
def ofTree (t : Json.Tree) : Except Failure Request := do
  let members ← t.toMembers "struct Request"
  ofMembers {} members

/-- The request in a text, with nothing after it. -/
def ofDocument (d : Json.Document) : Except Failure Request := do
  let request ← ofTree d.value
  match d.trailing with
  | some f => .error f
  | none => .ok request

/-- The request that a text is. -/
def ofText (text : String) : Except Json.Error Request :=
  (ofDocument (Json.Document.ofText text)).mapError (Json.Failure.locate text)

end Request

end CompileFlags
