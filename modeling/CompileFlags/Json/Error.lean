import CompileFlags.Text.Offset

/-!
# Why a text is refused as JSON
-/

namespace CompileFlags.Json

/-- What is wrong with a text, or with the shape of its value. -/
inductive Problem where
  | valueCut
  | stringCut
  | objectCut
  | listCut
  | valueExpected
  | objectCommaExpected
  | listCommaExpected
  | colonExpected
  | keyNotString
  | trailingComma
  | trailingCharacters
  | invalidNumber
  | numberTooLarge
  | wordExpected
  | tooDeep
  | controlCharacter
  | invalidEscape
  | hexEscapeCut
  | loneSurrogate
  | duplicateField (field : String)
  | missingField (field : String)
  | invalidType (found expected : String)
  deriving DecidableEq, Repr

/-- What a message says about a problem. -/
def Problem.message : Problem → String
  | valueCut => "EOF while parsing a value"
  | stringCut => "EOF while parsing a string"
  | objectCut => "EOF while parsing an object"
  | listCut => "EOF while parsing a list"
  | valueExpected => "expected value"
  | objectCommaExpected => "expected \x60,\x60 or \x60\x7d\x60"
  | listCommaExpected => "expected \x60,\x60 or \x60]\x60"
  | colonExpected => "expected \x60:\x60"
  | keyNotString => "key must be a string"
  | trailingComma => "trailing comma"
  | trailingCharacters => "trailing characters"
  | invalidNumber => "invalid number"
  | numberTooLarge => "number out of range"
  | wordExpected => "expected ident"
  | tooDeep => "recursion limit exceeded"
  | controlCharacter => "control character (\\u0000-\\u001F) found while parsing a string"
  | invalidEscape => "invalid escape"
  | hexEscapeCut => "unexpected end of hex escape"
  | loneSurrogate => "lone leading surrogate in hex escape"
  | duplicateField field => "duplicate field \x60" ++ field ++ "\x60"
  | missingField field => "missing field \x60" ++ field ++ "\x60"
  | invalidType found expected => "invalid type: " ++ found ++ ", expected " ++ expected

/-- A problem and the number of bytes read when it was found. -/
structure Failure where
  problem : Problem
  offset : Nat
  deriving DecidableEq, Repr

/-- A problem with the line and the column it was found at. -/
structure Error where
  problem : Problem
  position : Text.Position
  deriving DecidableEq, Repr

/-- Finds the line and the column of a failure in its text. -/
def Failure.locate (text : String) (f : Failure) : Error :=
  ⟨f.problem, .ofOffset text f.offset⟩

/-- The message of a refused text. -/
def Error.message (e : Error) : String :=
  e.problem.message ++ " at line " ++ toString e.position.line ++ " column " ++
    toString e.position.column

end CompileFlags.Json
