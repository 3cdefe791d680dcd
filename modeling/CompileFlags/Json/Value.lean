import CompileFlags.Number.Double
import CompileFlags.Json.Error
import CompileFlags.Text.Quoted

/-!
# Values

What a text can stand for. The fields of an object are kept in the order of their keys, and a key
has one value, the last that it was given.

* `lookup_setField` — a field that is set has its new value, and no other field changes.
-/

namespace CompileFlags.Json

/-- A number: an integer of 64 bits, with a sign or without, or else the double nearest to it. -/
inductive Number where
  | integer (i : Int)
  | float (x : Double)
  deriving DecidableEq, Repr

/-- A value that holds no others. -/
inductive Scalar where
  | null
  | boolean (b : Bool)
  | number (n : Number)
  | text (s : String)
  deriving DecidableEq, Repr

/-- What a message calls a scalar. -/
def Scalar.describe : Scalar → String
  | null => "null"
  | boolean b => "boolean \x60" ++ (if b then "true" else "false") ++ "\x60"
  | number (.integer i) => "integer \x60" ++ toString i ++ "\x60"
  | number (.float x) => "floating point \x60" ++ x.compact ++ "\x60"
  | text s => "string " ++ Text.quoted s

/-- A value. -/
inductive Value where
  | scalar (s : Scalar)
  | list (items : List Value)
  | object (fields : List (String × Value))
  deriving Inhabited

/-- Keys and their values, in the order of the keys. -/
abbrev Fields := List (String × Value)

/-- The fields with a new value for a key. -/
def setField {α : Type} (key : String) (value : α) : List (String × α) → List (String × α)
  | [] => [(key, value)]
  | (k, v) :: rest =>
    if k = key then (key, value) :: rest
    else if key < k then (key, value) :: (k, v) :: rest
    else (k, v) :: setField key value rest

/-- A field that is set has its new value, and no other field changes. -/
theorem lookup_setField {α : Type} (key k : String) (value : α) (fields : List (String × α)) :
    (setField key value fields).lookup k = if k = key then some value else fields.lookup k := by
  induction fields with
  | nil => by_cases h : k = key <;> simp [setField, h]
  | cons field rest ih =>
    obtain ⟨l, v⟩ := field
    by_cases hl : l = key
    · by_cases h : k = key
      · simp [setField, hl, h]
      · simp [setField, List.lookup_cons, hl, h, beq_eq_false_iff_ne.2 h]
    · by_cases hlt : key < l
      · by_cases h : k = key
        · simp [setField, hl, hlt, h]
        · simp [setField, List.lookup_cons, hl, hlt, h, beq_eq_false_iff_ne.2 h]
      · by_cases h : k = l
        · simp [setField, hlt, h, hl]
        · simp [setField, List.lookup_cons, hl, hlt, beq_eq_false_iff_ne.2 h, ih]

end CompileFlags.Json
