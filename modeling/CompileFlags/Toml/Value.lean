import CompileFlags.Number.Double
import CompileFlags.Toml.Error

/-!
# Values of a document

What a key of a document can hold. Values know the byte at which they start in the document, so that
a reader that asks for something else can say where it found them. Pairs are kept from the last to
the first, so that one more is put in front.
-/

namespace CompileFlags.Toml

/-- A value as it is written. -/
inductive Value where
  | integer (i : Int)
  | float (x : Double)
  | boolean (b : Bool)
  | text (s : String)
  | date
  /-- The items of an array, each with the byte it starts at. -/
  | array (items : List (Nat × Value))
  /-- The pairs of a table in braces, or of one made by `dotted` keys, the last one first. -/
  | table (dotted : Bool) (pairs : List (String × Nat × Value))
  deriving Inhabited

/-- A value and the byte it starts at. -/
abbrev Placed := Nat × Value

/-- A key and its value. -/
abbrev Pair := String × Placed

/-- Pairs in the order they are written, with the value of the first one of a key changed. -/
def changePair (key : String) (change : Placed → Except Failure Placed) :
    List Pair → Except Failure (List Pair)
  | [] => .ok []
  | pair :: rest =>
    if pair.1 = key then do .ok ((key, ← change pair.2) :: rest)
    else do .ok (pair :: (← changePair key change rest))

/-- The pairs with the one of a key that is written first replaced by what `change` makes of its
value, or with `new` if none has the key. -/
def alterPair (key : String) (change : Placed → Except Failure Placed)
    (new : Except Failure Placed) (pairs : List Pair) : Except Failure (List Pair) :=
  if pairs.any fun pair => pair.1 = key then do
    let pairs ← changePair key change pairs.reverse
    .ok pairs.reverse
  else do .ok ((key, ← new) :: pairs)

/-- The pairs with one more. Of several keys all but the last name tables on the way, which dotted
keys alone may have made. A single key is added even if it is there already. -/
def addPair (key : String) : List String → Placed → List Pair → Except Failure (List Pair)
  | [], value, pairs => .ok ((key, value) :: pairs)
  | next :: more, value, pairs =>
    alterPair key
      (fun placed =>
        match placed with
        | (start, .table true inner) => do
          .ok (start, .table true (← addPair next more value inner))
        | (start, _) => .error (.atByte start .dottedKey))
      (do .ok (value.1, .table true (← addPair next more value [])))
      pairs

/-- What a message calls a value. -/
def Value.describe : Value → String
  | integer i => "integer " ++ marked (toString i)
  | float x => "floating point " ++ marked x.plain
  | boolean b => "boolean " ++ marked (if b then "true" else "false")
  | text s => "string " ++ Text.quoted s
  | date | table _ _ => "map"
  | array _ => "sequence"

end CompileFlags.Toml
