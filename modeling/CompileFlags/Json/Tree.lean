import CompileFlags.Json.Number
import CompileFlags.Json.Text

/-!
# Trees

A text as far as it can be read: values, and where they stand. What cannot be read is part of the
tree, as the failure that it is, so that whoever asks for a value of some kind meets the first thing
that is wrong with the text in the order of reading.

* `Document.ofText` reads a text.
* `Tree.toValue`, `Tree.toText` and `Tree.toBool` ask for values.
-/

namespace CompileFlags.Json

/-- A key of an object. `mark` is the number of bytes read when the key is known. -/
structure Key where
  name : String
  mark : Nat
  deriving DecidableEq, Repr

mutual

/-- A value as far as it can be read. -/
inductive Tree where
  /-- A scalar, and the number of bytes read at its end. -/
  | scalar (s : Scalar) (stop : Nat)
  /-- A list, and the number of bytes before it. -/
  | list (start : Nat) (items : Items)
  /-- An object, and the number of bytes before it. -/
  | object (start : Nat) (members : Members)
  | broken (f : Failure)

/-- The items of a list as far as they can be read. -/
inductive Items where
  /-- The list is closed, and this many bytes were read then. -/
  | closed (stop : Nat)
  | broken (f : Failure)
  | item (value : Tree) (rest : Items)

/-- The members of an object as far as they can be read. -/
inductive Members where
  /-- The object is closed, and this many bytes were read then. -/
  | closed (stop : Nat)
  | broken (f : Failure)
  | member (key : Key) (value : Tree) (rest : Members)

end

instance : Inhabited Tree := ⟨.scalar .null 0⟩

/-- The members of an object in the order in which they are written. -/
def Members.toList : Members → List (Key × Tree)
  | member key value rest => (key, value) :: rest.toList
  | _ => []

/-- The items of a list. -/
def Items.toList : Items → List Tree
  | item value rest => value :: rest.toList
  | _ => []

/-! ## Reading a text -/

/-- How many brackets may be open, less one. -/
def maxDepth : Nat := 127

/-- A part of a tree, and the input after it unless it is broken. -/
abbrev Read (α : Type) := α × Except Failure Input

/-- A value that cannot be read. -/
def brokenTree (f : Failure) : Read Tree := (.broken f, .error f)

/-- A scalar that was read. -/
def scalarTree (s : Except Failure (Scalar × Input)) : Read Tree :=
  match s with
  | .ok (s, i) => (.scalar s i.offset, .ok i)
  | .error f => brokenTree f

/-- A word that stands for a scalar. -/
def word (s : Scalar) (spelling : List Char) (i : Input) : Except Failure (Scalar × Input) :=
  (i.expect spelling).map fun j => (s, j)

/-- A number, whose sign was read if it has one. -/
def number (negative : Bool) (i : Input) : Except Failure (Scalar × Input) :=
  (Number.parse negative i).map fun p => (.number p.1, p.2)

/-- A text after its opening quote. -/
def text (i : Input) : Except Failure (String × Input) :=
  (Text.body i).map fun p => (.ofList p.1, p.2)

/-- The key of a member after its opening quote. It is known when it is clear whether the object
ends after it. -/
def key (i : Input) : Except Failure (Key × Input) :=
  (text i).map fun p =>
    let j := p.2.skipBlanks
    (⟨p.1, j.offset + (if j.rest.head? = some '}' then 1 else 0)⟩, j)

/-- The scalar that starts with a character, unless none does. -/
def scalar (i : Input) (c : Char) (rest : List Char) : Except Failure (Scalar × Input) :=
  let next : Input := ⟨i.offset + 1, rest⟩
  match c with
  | 'n' => word .null ['u', 'l', 'l'] next
  | 't' => word (.boolean true) ['r', 'u', 'e'] next
  | 'f' => word (.boolean false) ['a', 'l', 's', 'e'] next
  | '"' => (text next).map fun p => (.text p.1, p.2)
  | '-' => number true next
  | c => if c.isDigit then number false i else .error ⟨.valueExpected, i.offset + 1⟩

mutual

/-- The value that stands next, within so many brackets. `fuel` is more than the length of the
input. -/
def value (fuel depth : Nat) (i : Input) : Read Tree :=
  match fuel with
  | 0 => brokenTree ⟨.valueCut, i.offset⟩
  | fuel + 1 =>
    let i := i.skipBlanks
    match i.rest with
    | [] => brokenTree ⟨.valueCut, i.offset⟩
    | '[' :: rest =>
      match depth with
      | 0 => brokenTree ⟨.tooDeep, i.offset + 1⟩
      | depth + 1 =>
        let (read, after) := items fuel depth true ⟨i.offset + 1, rest⟩
        (.list i.offset read, after)
    | '{' :: rest =>
      match depth with
      | 0 => brokenTree ⟨.tooDeep, i.offset + 1⟩
      | depth + 1 =>
        let (read, after) := members fuel depth true ⟨i.offset + 1, rest⟩
        (.object i.offset read, after)
    | c :: rest => scalarTree (scalar i c rest)

/-- The items of a list after its bracket, or after its first items. -/
def items (fuel depth : Nat) (first : Bool) (i : Input) : Read Items :=
  match fuel with
  | 0 => (.broken ⟨.listCut, i.offset⟩, .error ⟨.listCut, i.offset⟩)
  | fuel + 1 =>
    let i := i.skipBlanks
    let fail (f : Failure) : Read Items := (.broken f, .error f)
    let itemFrom (j : Input) : Read Items :=
      match value fuel depth j with
      | (tree, .error f) => (.item tree (.broken f), .error f)
      | (tree, .ok j) =>
        let (rest, after) := items fuel depth false j
        (.item tree rest, after)
    match i.rest with
    | [] => fail ⟨.listCut, i.offset⟩
    | ']' :: rest => (.closed (i.offset + 1), .ok ⟨i.offset + 1, rest⟩)
    | c :: rest =>
      if first then itemFrom i
      else if c = ',' then
        let j := (Input.mk (i.offset + 1) rest).skipBlanks
        match j.rest with
        | [] => fail ⟨.valueCut, j.offset⟩
        | ']' :: _ => fail ⟨.trailingComma, j.offset + 1⟩
        | _ => itemFrom j
      else fail ⟨.listCommaExpected, i.offset + 1⟩

/-- The members of an object after its bracket, or after its first members. -/
def members (fuel depth : Nat) (first : Bool) (i : Input) : Read Members :=
  match fuel with
  | 0 => (.broken ⟨.objectCut, i.offset⟩, .error ⟨.objectCut, i.offset⟩)
  | fuel + 1 =>
    let i := i.skipBlanks
    let fail (f : Failure) : Read Members := (.broken f, .error f)
    let memberFrom (j : Input) : Read Members :=
      match j.rest with
      | [] => fail ⟨.valueCut, j.offset⟩
      | '"' :: rest =>
        match key ⟨j.offset + 1, rest⟩ with
        | .error f => fail f
        | .ok (k, j) =>
          match j.rest with
          | ':' :: rest =>
            match value fuel depth ⟨j.offset + 1, rest⟩ with
            | (tree, .error f) => (.member k tree (.broken f), .error f)
            | (tree, .ok j) =>
              let (rest, after) := members fuel depth false j
              (.member k tree rest, after)
          | [] =>
            let f : Failure := ⟨.objectCut, j.offset⟩
            (.member k (.broken f) (.broken f), .error f)
          | _ =>
            let f : Failure := ⟨.colonExpected, j.offset + 1⟩
            (.member k (.broken f) (.broken f), .error f)
      | '}' :: _ => fail ⟨.trailingComma, j.offset + 1⟩
      | _ => fail ⟨.keyNotString, j.offset + 1⟩
    match i.rest with
    | [] => fail ⟨.objectCut, i.offset⟩
    | '}' :: rest => (.closed (i.offset + 1), .ok ⟨i.offset + 1, rest⟩)
    | c :: rest =>
      if first then memberFrom i
      else if c = ',' then memberFrom (Input.mk (i.offset + 1) rest).skipBlanks
      else fail ⟨.objectCommaExpected, i.offset + 1⟩

end

/-- A text as a tree, and what is wrong with what follows its value, if that can be read. -/
structure Document where
  value : Tree
  trailing : Option Failure

/-- Reads a text. -/
def Document.ofText (text : String) : Document :=
  let i := Input.ofText text
  let (tree, after) := Json.value (i.rest.length + 1) maxDepth i
  let trailing :=
    match after with
    | .error _ => none
    | .ok j =>
      let j := j.skipBlanks
      if j.rest.isEmpty then none else some ⟨.trailingCharacters, j.offset + 1⟩
  ⟨tree, trailing⟩

/-! ## Asking for values -/

mutual

/-- The value that a tree stands for. -/
def Tree.toValue : Tree → Except Failure Value
  | .scalar s _ => .ok (.scalar s)
  | .list _ items => items.toValues.map .list
  | .object _ members => (members.toFields []).map .object
  | .broken f => .error f

/-- The values of a list. -/
def Items.toValues : Items → Except Failure (List Value)
  | .closed _ => .ok []
  | .broken f => .error f
  | .item value rest => do
    let value ← value.toValue
    let rest ← rest.toValues
    .ok (value :: rest)

/-- The fields of an object with those before them. -/
def Members.toFields (before : Fields) : Members → Except Failure Fields
  | .closed _ => .ok before
  | .broken f => .error f
  | .member key value rest => do
    let value ← value.toValue
    rest.toFields (setField key.name value before)

end

/-- Refuses a tree that is not of the expected kind. A list or an object is refused where it starts,
a scalar where it ends. -/
def Tree.mismatch {α : Type} (expected : String) : Tree → Except Failure α
  | scalar s stop => .error ⟨.invalidType s.describe expected, stop⟩
  | list start _ => .error ⟨.invalidType "sequence" expected, start⟩
  | object start _ => .error ⟨.invalidType "map" expected, start⟩
  | broken f => .error f

/-- A text. -/
def Tree.toText : Tree → Except Failure String
  | scalar (.text s) _ => .ok s
  | tree => tree.mismatch "a string"

/-- A boolean, or nothing for null. -/
def Tree.toBool? : Tree → Except Failure (Option Bool)
  | scalar .null _ => .ok none
  | scalar (.boolean b) _ => .ok (some b)
  | tree => tree.mismatch "a boolean"

/-- The members of an object, which a message calls `expected`. -/
def Tree.toMembers (expected : String) : Tree → Except Failure Members
  | object _ members => .ok members
  | tree => tree.mismatch expected

/-- The value of a text. -/
def Value.ofText (text : String) : Except Failure Value := do
  let d := Document.ofText text
  let value ← d.value.toValue
  match d.trailing with
  | some f => .error f
  | none => .ok value

end CompileFlags.Json
