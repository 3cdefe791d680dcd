import CompileFlags.Json.Value

/-!
# What is left to read

A text that is read from its start knows how many bytes were read, for the places that messages
name.
-/

namespace CompileFlags.Json

/-- What is left of a text, and the number of bytes before it. -/
structure Input where
  offset : Nat
  rest : List Char
  deriving DecidableEq, Repr

namespace Input

/-- A text of which nothing was read. -/
def ofText (text : String) : Input := ⟨0, text.toList⟩

/-- The characters that mean nothing between values. -/
def isSkipped (c : Char) : Bool := c == ' ' || c == '\n' || c == '\t' || c == '\r'

/-- The input after the blanks at its start. -/
def skipBlanks (i : Input) : Input :=
  ⟨i.offset + (i.rest.takeWhile isSkipped).length, i.rest.dropWhile isSkipped⟩

/-- Refuses what stands next, which is `problem` unless nothing does, and then `cut`. -/
def refuse {α : Type} (i : Input) (cut problem : Problem) : Except Failure α :=
  match i.rest with
  | [] => .error ⟨cut, i.offset⟩
  | _ :: _ => .error ⟨problem, i.offset + 1⟩

/-- The input after the characters of a word, which have to be ASCII. -/
def expect (i : Input) : List Char → Except Failure Input
  | [] => .ok i
  | c :: word =>
    match i.rest with
    | d :: rest =>
      if d = c then expect ⟨i.offset + 1, rest⟩ word else i.refuse .valueCut .wordExpected
    | [] => i.refuse .valueCut .wordExpected

/-- The digits that stand next, and the input after them. -/
def digits (i : Input) : List Nat × Input :=
  let ds := i.rest.takeWhile Char.isDigit
  (ds.map fun c => c.toNat - '0'.toNat, ⟨i.offset + ds.length, i.rest.dropWhile Char.isDigit⟩)

end Input

end CompileFlags.Json
