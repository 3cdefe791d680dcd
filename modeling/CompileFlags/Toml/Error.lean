import CompileFlags.Text.Offset
import CompileFlags.Text.Quoted

/-!
# Why a document is refused

What can be wrong with a document: with its signs, with its tables, or with the shape that its
reader asks for. A failure knows the byte at which it was found, if any, and the keys that lead
there.
-/

namespace CompileFlags.Toml

/-- What is wrong. -/
inductive Problem where
  /-- The document ends where a value has to stand. -/
  | valueMissing
  | unexpectedChar (c : Char)
  /-- A character that a string cannot hold. -/
  | charInString (c : Char)
  | escape (c : Char)
  | hexEscape (c : Char)
  /-- An escape with the number of no character. -/
  | escapeValue (n : Nat)
  | newlineInString
  | unterminatedString
  | multilineKey
  /-- Another sign was expected than the one that was found. -/
  | wanted (expected found : String)
  | invalidNumber
  | invalidDate
  /-- A word that is no value. -/
  | unquotedString
  /-- A dotted key goes through a key that holds no table of dotted keys. -/
  | dottedKey
  | redefinition (table : String)
  | redefinedAsArray
  | unknownField (field : String) (known : List String)
  | missingField (field : String)
  | duplicateField (field : String)
  | invalidType (found expected : String)
  | invalidLength (found : Nat) (expected : String)
  deriving DecidableEq, Repr

/-- A name as messages mark it. -/
def marked (name : String) : String := "\x60" ++ name ++ "\x60"

/-- The fields that are known, as a message lists them. -/
def listFields : List String → String
  | [] => "there are no fields"
  | [a] => "expected " ++ marked a
  | [a, b] => "expected " ++ marked a ++ " or " ++ marked b
  | fields => "expected one of " ++ String.intercalate ", " (fields.map marked)

/-- What a message says about a problem. -/
def Problem.message : Problem → String
  | valueMissing => "unexpected eof encountered"
  | unexpectedChar c => "unexpected character found: " ++ shown c
  | charInString c => "invalid character in string: " ++ shown c
  | escape c => "invalid escape character in string: " ++ shown c
  | hexEscape c => "invalid hex escape character in string: " ++ shown c
  | escapeValue n => "invalid escape value: " ++ marked (toString n)
  | newlineInString => "newline in string found"
  | unterminatedString => "unterminated string"
  | multilineKey => "multiline strings are not allowed for key"
  | wanted expected found => "expected " ++ expected ++ ", found " ++ found
  | invalidNumber => "invalid number"
  | invalidDate => "invalid date"
  | unquotedString => "invalid TOML value, did you mean to use a quoted string?"
  | dottedKey => "dotted key attempted to extend non-table type"
  | redefinition table => "redefinition of table " ++ marked table
  | redefinedAsArray => "table redefined as array"
  | unknownField field known => "unknown field " ++ marked field ++ ", " ++ listFields known
  | missingField field => "missing field " ++ marked field
  | duplicateField field => "duplicate field " ++ marked field
  | invalidType found expected => "invalid type: " ++ found ++ ", expected " ++ expected
  | invalidLength found expected =>
    "invalid length " ++ toString found ++ ", expected " ++ expected
where
  /-- A character as a message marks it. -/
  shown (c : Char) : String := marked (.ofList (Text.shownChar c))

/-- A problem at a byte of a document, on the way through some keys. -/
structure Failure where
  problem : Problem
  keys : List String
  offset : Option Nat
  deriving DecidableEq, Repr

namespace Failure

/-- A problem at a byte. -/
def atByte (offset : Nat) (problem : Problem) : Failure := ⟨problem, [], some offset⟩

/-- A problem that does not know its place yet. -/
def unplaced (problem : Problem) : Failure := ⟨problem, [], none⟩

/-- Gives a failure a place unless it has one. -/
def place (offset : Nat) (f : Failure) : Failure := { f with offset := f.offset.or (some offset) }

/-- Puts a key before the keys of a failure. -/
def under (key : String) (f : Failure) : Failure := { f with keys := key :: f.keys }

end Failure

/-- A failure with the line and the column it was found at. -/
structure Error where
  problem : Problem
  keys : List String
  position : Option Text.Position
  deriving DecidableEq, Repr

/-- Finds the line and the column of a failure in the text of the document. -/
def Failure.locate (text : String) (f : Failure) : Error :=
  ⟨f.problem, f.keys, f.offset.map (Text.Position.ofOffset text)⟩

/-- The message of a refused document. Columns are counted from one. -/
def Error.message (e : Error) : String :=
  e.problem.message ++
  (if e.keys.isEmpty then "" else " for key " ++ marked (String.intercalate "." e.keys)) ++
  match e.position with
  | none => ""
  | some p => " at line " ++ toString p.line ++ " column " ++ toString (p.column + 1)

end CompileFlags.Toml
