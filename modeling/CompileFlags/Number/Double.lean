/-!
# Doubles

The numbers that a double-precision word can hold, in exact arithmetic: a mantissa below 2^53 times
a power of two. `ofRatio` rounds a quotient of naturals to the nearest of them, a tie to the even
mantissa.
-/

namespace CompileFlags

/-- A double. -/
inductive Double where
  | nan
  | infinite (negative : Bool)
  /-- The number `mantissa * 2 ^ exponent`, or its negative. -/
  | finite (negative : Bool) (mantissa : Nat) (exponent : Int)
  deriving DecidableEq, Repr, Inhabited

namespace Double

/-- The least exponent. -/
def minExponent : Int := -1074

/-- The greatest exponent. -/
def maxExponent : Int := 971

/-- One more than the greatest mantissa. -/
def mantissaBound : Nat := Nat.pow 2 53

/-- A quotient rounded to a natural, a tie to the even one. -/
def roundDiv (num den : Nat) : Nat :=
  let down := num / den
  let rest := num % den
  if 2 * rest < den then down
  else if den < 2 * rest then down + 1
  else if down % 2 = 0 then down
  else down + 1

/-- A quotient as a fraction of 2 to a power. -/
def scaled (num den : Nat) (exponent : Int) : Nat × Nat :=
  if 0 ≤ exponent then (num, den * Nat.pow 2 exponent.toNat)
  else (num * Nat.pow 2 (-exponent).toNat, den)

/-- The double nearest to a quotient of naturals, or to its negative. -/
def ofRatio (negative : Bool) (num den : Nat) : Double :=
  if num = 0 then finite negative 0 minExponent
  else
    let guess : Int := (num.log2 : Int) - den.log2 - 53
    let (n, d) := scaled num den guess
    let exact := if mantissaBound ≤ n / d then guess + 1 else guess
    let exponent := max exact minExponent
    let (n, d) := scaled num den exponent
    let mantissa := roundDiv n d
    let (mantissa, exponent) :=
      if mantissa = mantissaBound then (mantissa / 2, exponent + 1) else (mantissa, exponent)
    if maxExponent < exponent then infinite negative else finite negative mantissa exponent

/-- The double nearest to a natural times a power of ten. Powers far out of reach are not
computed. -/
def ofDecimal (negative : Bool) (digits : Nat) (exponent : Int) : Double :=
  if digits = 0 then finite negative 0 minExponent
  else
    if 0 ≤ exponent then
      if 2000 < exponent then infinite negative
      else ofRatio negative (digits * Nat.pow 10 exponent.toNat) 1
    else if (digits.log2 : Int) + 3 * exponent < -4000 then finite negative 0 minExponent
    else ofRatio negative digits (Nat.pow 10 (-exponent).toNat)

/-- A double as a quotient of naturals, without its sign. -/
def ratio (mantissa : Nat) (exponent : Int) : Nat × Nat :=
  if 0 ≤ exponent then (mantissa * Nat.pow 2 exponent.toNat, 1)
  else (mantissa, Nat.pow 2 (-exponent).toNat)

/-- The product of a double with a power of ten, rounded. The power has to be a double itself up to
rounding, as all up to 10^308 are. -/
def timesPower (x : Double) (power : Nat) : Double :=
  match x, ofDecimal false 1 power with
  | finite negative m e, finite _ pm pe =>
    let (a, b) := ratio m e
    let (c, d) := ratio pm pe
    ofRatio negative (a * c) (b * d)
  | x, _ => x

/-- The quotient of a double by a power of ten, rounded. -/
def overPower (x : Double) (power : Nat) : Double :=
  match x, ofDecimal false 1 power with
  | finite negative m e, finite _ pm pe =>
    let (a, b) := ratio m e
    let (c, d) := ratio pm pe
    ofRatio negative (a * d) (b * c)
  | x, _ => x

/-! ## Shortest digits -/

/-- The exponent of the first decimal digit of a positive quotient. -/
def decimalExponent (num den : Nat) : Int :=
  if den ≤ num then ((Nat.toDigits 10 (num / den)).length : Int) - 1
  else
    let places : Option Nat := (List.range 400).find? fun k => den ≤ num * Nat.pow 10 k
    0 - Int.ofNat (places.getD 400)

/-- Where a number goes that is halfway between two neighbours. -/
inductive Tie where
  /-- To the neighbour that is even. -/
  | even
  /-- To the neighbour farther from zero. -/
  | away
  deriving DecidableEq, Repr

/-- The nearer of `down` and the natural after it to a quotient between them. -/
def Tie.nearer (tie : Tie) (down value unit : Nat) : Nat :=
  let below := value - down * unit
  let above := (down + 1) * unit - value
  if above < below then down + 1
  else if below < above then down
  else
    match tie with
    | even => if down % 2 = 0 then down else down + 1
    | away => down + 1

/-- Of the two naturals around a quotient the nearer that lies between two bounds, all four numbers
in the same unit. The bounds count if they are `inclusive`. -/
def nearestWithin (tie : Tie) (low value high unit : Nat) (inclusive : Bool) : Option Nat :=
  let down := value / unit
  let within := fun n =>
    if inclusive then low ≤ n * unit ∧ n * unit ≤ high else low < n * unit ∧ n * unit < high
  let downOk := decide (within down) && down != 0
  let upOk := decide (within (down + 1))
  if downOk && upOk then some (tie.nearer down value unit)
  else if downOk then some down
  else if upOk then some (down + 1)
  else none

/-- The fewest decimal digits that are read back as a positive double, as a natural and the exponent
of its last digit. All numbers nearer to the double than to any other are read back as it, and those
halfway as well if its mantissa is even. -/
def shortest (tie : Tie) (mantissa : Nat) (exponent : Int) : Nat × Int :=
  let closeBelow := mantissa = mantissaBound / 2 ∧ minExponent < exponent
  let (scale, den) := ratio 1 (exponent - 2)
  let value := 4 * mantissa * scale
  let low := (if closeBelow then 4 * mantissa - 1 else 4 * mantissa - 2) * scale
  let high := (4 * mantissa + 2) * scale
  let first := decimalExponent value den
  let attempt := fun (n : Nat) =>
    let unit : Int := first - n
    let (up, down) :=
      if 0 ≤ unit then (Nat.pow 10 unit.toNat, 1) else (1, Nat.pow 10 (-unit).toNat)
    (nearestWithin tie (low * down) (value * down) (high * down) (up * den) (mantissa % 2 = 0)).map
      fun d => (d, unit)
  ((List.range 18).findSome? attempt).getD (mantissa, 0)

/-- Digits without zeros at their end, which count in the exponent instead. -/
def stripZeros (exponent : Int) : List Char → List Char × Int
  | [] => ([], exponent)
  | '0' :: more => stripZeros (exponent + 1) more
  | reversed => (reversed.reverse, exponent)

/-- The decimal digits of a positive double and the exponent of the last. -/
def digits (tie : Tie) (mantissa : Nat) (exponent : Int) : List Char × Int :=
  let (d, e) := shortest tie mantissa exponent
  stripZeros e (Nat.toDigits 10 d).reverse

/-- So many zeros. -/
def zeros (n : Int) : List Char := List.replicate n.toNat '0'

/-- Digits with a point after the first `point` of them, zeros filling the gaps on both sides. There
is always a digit on each side. -/
def positional (ds : List Char) (point : Int) : List Char :=
  let count : Int := ds.length
  if point ≤ 0 then ['0', '.'] ++ zeros (-point) ++ ds
  else if count ≤ point then ds ++ zeros (point - count) ++ ['.', '0']
  else ds.take point.toNat ++ ['.'] ++ ds.drop point.toNat

/-- Digits with a point after the first and a power of ten, which has a sign. -/
def scientific (ds : List Char) (point : Int) : List Char :=
  let mantissa := match ds with
    | [] => []
    | [d] => [d]
    | d :: more => d :: '.' :: more
  let power := point - 1
  mantissa ++ ['e', if power < 0 then '-' else '+'] ++ Nat.toDigits 10 power.natAbs

/-- The text of a double with layout `layout` for its digits and the place of its point. -/
def render (tie : Tie) (layout : List Char → Int → List Char) : Double → String
  | nan => "NaN"
  | infinite negative => if negative then "-inf" else "inf"
  | finite negative m e =>
    let body :=
      if m = 0 then ['0', '.', '0']
      else
        let (ds, last) := digits tie m e
        layout ds (last + ds.length)
    .ofList (if negative then '-' :: body else body)

/-- The text of a double without powers of ten. -/
def plain : Double → String := render .away positional

/-- The text of a double with a power of ten if it is 10^16 or more or less than 10^-5. -/
def compact : Double → String :=
  render .even fun ds point =>
    if -5 < point && point ≤ 16 then positional ds point else scientific ds point

end Double

end CompileFlags
