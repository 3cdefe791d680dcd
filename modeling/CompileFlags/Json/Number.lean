import CompileFlags.Json.Input

/-!
# Numbers

A number is gathered from its digits as long as they fit 64 bits. Later digits before the point
count as zeros, and after it not at all; what is gathered is then taken times a power of ten, in
doubles.
-/

namespace CompileFlags.Json.Number

/-- The greatest number of 64 bits, and the greatest exponent. -/
def maxWord : Nat := Nat.pow 2 64 - 1
def maxExponent : Nat := Nat.pow 2 31 - 1

/-- Appends digits to a number as long as it does not exceed a bound. The second component counts
them. -/
def gather (bound value taken : Nat) : List Nat → Nat × Nat
  | [] => (value, taken)
  | d :: rest =>
    if value * 10 + d ≤ bound then gather bound (value * 10 + d) (taken + 1) rest
    else (value, taken)

/-- The power of ten by which a double is taken at a time. -/
def maxPower : Nat := 308

/-- A double over a power of ten, taken in steps. -/
def shrink (x : Double) (power : Nat) : Double :=
  if power ≤ maxPower then x.overPower power
  else
    match x with
    | .finite _ 0 _ => x
    | _ => shrink (x.overPower maxPower) (power - maxPower)
termination_by power
decreasing_by simp only [maxPower] at *; omega

/-- A natural times a power of ten as a double, if it is not too large for one. -/
def scale? (negative : Bool) (value : Nat) (exponent : Int) : Option Double :=
  let x := Double.ofRatio negative value 1
  if exponent < 0 then some (shrink x (-exponent).toNat)
  else if value = 0 then some x
  else if exponent ≤ maxPower then
    match x.timesPower exponent.toNat with
    | .infinite _ => none
    | y => some y
  else none

/-- The float that ends before the input. -/
def finish (negative : Bool) (value : Nat) (exponent : Int) (i : Input) :
    Except Failure (Number × Input) :=
  match scale? negative value exponent with
  | some x => .ok (.float x, i)
  | none => .error ⟨.numberTooLarge, i.offset⟩

/-- The sign of an exponent: whether it is negative, and the input after it. -/
def exponentSign (i : Input) : Bool × Input :=
  match i.rest with
  | '+' :: rest => (false, ⟨i.offset + 1, rest⟩)
  | '-' :: rest => (true, ⟨i.offset + 1, rest⟩)
  | _ => (false, i)

/-- A float from the exponent on. -/
def exponentPart (negative : Bool) (value : Nat) (start : Int) (i : Input) :
    Except Failure (Number × Input) :=
  let (small, i) := exponentSign i
  let (ds, j) := i.digits
  if ds.isEmpty then i.refuse .valueCut .invalidNumber
  else
    let (exponent, taken) := gather maxExponent 0 0 ds
    if taken < ds.length then
      if value ≠ 0 ∧ !small then .error ⟨.numberTooLarge, i.offset + taken + 1⟩
      else finish negative 0 0 j
    else finish negative value (if small then start - exponent else start + exponent) j

/-- A float from the digits after its point on. -/
def fractionPart (negative : Bool) (value dropped : Nat) (i : Input) :
    Except Failure (Number × Input) :=
  let (ds, j) := i.digits
  if ds.isEmpty then i.refuse .valueCut .invalidNumber
  else
    let (value, taken) := gather maxWord value 0 ds
    let exponent : Int := (dropped : Int) - taken
    match j.rest with
    | 'e' :: rest | 'E' :: rest => exponentPart negative value exponent ⟨j.offset + 1, rest⟩
    | _ => finish negative value exponent j

/-- A number without a point or an exponent, unless it has to be a float. -/
def whole (negative : Bool) (value : Nat) : Number :=
  if !negative then .integer value
  else if 0 < value ∧ value ≤ Nat.pow 2 63 then .integer (-(value : Int))
  else .float (.ofRatio true value 1)

/-- A number after its sign. -/
def parse (negative : Bool) (i : Input) : Except Failure (Number × Input) :=
  let (ds, j) := i.digits
  match ds with
  | [] => i.refuse .valueCut .invalidNumber
  | 0 :: _ :: _ => .error ⟨.invalidNumber, i.offset + 2⟩
  | _ =>
    let (value, taken) := gather maxWord 0 0 ds
    let dropped := ds.length - taken
    match j.rest with
    | '.' :: rest => fractionPart negative value dropped ⟨j.offset + 1, rest⟩
    | 'e' :: rest | 'E' :: rest => exponentPart negative value dropped ⟨j.offset + 1, rest⟩
    | _ => if dropped = 0 then .ok (whole negative value, j) else finish negative value dropped j

end CompileFlags.Json.Number
