import CompileFlags.Toml.Token
import CompileFlags.Toml.Value

/-!
# Documents

A document is a row of tables, each with a header that names it and the pairs written below it. The
pairs before the first header belong to the root. `Document.ofText` reads the tables of a text; what
they mean together is a matter of `Toml.Field`.
-/

namespace CompileFlags.Toml

/-- A table of a document. -/
structure Table where
  /-- The byte at which its header starts. -/
  start : Nat
  /-- The keys of its header, none for the root. -/
  header : List String
  /-- Whether it is one of an array of tables. -/
  isArray : Bool
  /-- Its pairs, the last one first. -/
  pairs : List Pair

/-- The tables of a document, in order. The root is among them only if it has pairs. -/
structure Document where
  tables : List Table

/-! ## Skipping and expecting -/

namespace Tokens

/-- The signs after any blanks. -/
def skipBlanks : Tokens → Tokens
  | token _ (.blanks _) rest => rest.skipBlanks
  | ts => ts

/-- The signs after any blanks, newlines and comments, each comment with the end of its line. -/
def skipLines : Tokens → Tokens
  | token _ (.blanks _) rest => rest.skipLines
  | token _ .newline rest => rest.skipLines
  | token _ .comment rest => rest.skipLines
  | ts => ts

/-- What is wrong where `expected` had to stand. -/
def refuse {α : Type} (expected : String) : Tokens → Except Failure α
  | finish n => .error (.atByte n (.wanted expected "eof"))
  | broken _ f => .error f
  | token n t _ => .error (.atByte n (.wanted expected t.describe))

/-- The signs after the expected one. -/
def expect (t : Token) : Tokens → Except Failure Tokens
  | token n found rest =>
    if found = t then .ok rest else refuse t.describe (token n found rest)
  | ts => refuse t.describe ts

/-- The signs after the end of a line. -/
def endLine : Tokens → Except Failure Tokens
  | finish n => .ok (finish n)
  | token _ .newline rest => .ok rest
  | ts => refuse "newline" ts

/-- The signs after the rest of a line, on which only a comment may stand. -/
def finishLine (ts : Tokens) : Except Failure Tokens :=
  match ts.skipBlanks with
  | token _ .comment rest => rest.endLine
  | ts => ts.endLine

end Tokens

/-! ## Keys -/

/-- A key and the signs after it. -/
def key : Tokens → Except Failure (String × Tokens)
  | .token _ (.word w) rest => .ok (w, rest)
  | .token n (.text s multiline) rest =>
    if multiline then .error (.atByte n .multilineKey) else .ok (s, rest)
  | ts => ts.refuse "a table key"

/-- Further keys, each after a period; `fuel` bounds their number. -/
def moreKeys : Nat → Tokens → Except Failure (List String × Tokens)
  | 0, ts => .ok ([], ts)
  | fuel + 1, ts =>
    match ts.skipBlanks with
    | .token _ .period rest => do
      let (k, rest) ← key rest.skipBlanks
      let (ks, rest) ← moreKeys fuel rest
      .ok (k :: ks, rest)
    | .broken _ f => .error f
    | ts => .ok ([], ts)

/-- Keys with periods between them, and the signs after the blanks that follow. -/
def dottedKeys (fuel : Nat) (ts : Tokens) :
    Except Failure ((String × List String) × Tokens) := do
  let (k, rest) ← key ts
  let (ks, rest) ← moreKeys fuel rest
  .ok ((k, ks), rest)

/-! ## Numbers and dates -/

/-- The value of a digit in a base up to sixteen. -/
def digitValue? (base : Nat) (c : Char) : Option Nat :=
  (Text.hexValue? c).filter (· < base)

/-- The digits of a number without the underscores between them. -/
structure Digits where
  negative : Bool
  digits : List Char
  deriving Repr

/-- How digits may be written. -/
structure DigitRules where
  base : Nat
  sign : Bool
  leadingZeros : Bool

/-- Reads digits from byte `offset` of a number that starts at byte `start`. An underscore stands
between two digits only. -/
def scanDigits (rules : DigitRules) (start : Nat) (any zero underscore : Bool) (offset : Nat) :
    List Char → Except Failure (List Char × List Char)
  | [] => if !any || underscore then .error (.atByte start .invalidNumber) else .ok ([], [])
  | c :: rest =>
    if c = '0' ∧ !any then do
      let (ds, after) ← scanDigits rules start true true underscore (offset + 1) rest
      .ok (c :: ds, after)
    else if (digitValue? rules.base c).isSome then
      if any && zero && !rules.leadingZeros then .error (.atByte offset .invalidNumber)
      else do
        let (ds, after) ← scanDigits rules start true zero false (offset + 1) rest
        .ok (c :: ds, after)
    else if c = '_' ∧ !any then .error (.atByte offset .invalidNumber)
    else if c = '_' ∧ !underscore then scanDigits rules start any zero true (offset + 1) rest
    else if !any || underscore then .error (.atByte start .invalidNumber)
    else .ok ([], c :: rest)

/-- The digits at the front of a word that starts at byte `start`, and the rest of the word. -/
def digits (rules : DigitRules) (start : Nat) (cs : List Char) :
    Except Failure (Digits × List Char) :=
  match cs with
  | '-' :: rest =>
    if rules.sign then do
      let (ds, after) ← scanDigits rules start false false false (start + 1) rest
      .ok (⟨true, ds⟩, after)
    else unsigned
  | _ => unsigned
where
  /-- The digits of a word without a sign. -/
  unsigned : Except Failure (Digits × List Char) := do
    let (ds, after) ← scanDigits rules start false false false start cs
    .ok (⟨false, ds⟩, after)

/-- The number that digits write. -/
def Digits.value (base : Nat) (d : Digits) : Int :=
  let n := d.digits.foldl (fun n c => n * base + (digitValue? base c).getD 0) 0
  if d.negative then -(n : Int) else n

/-- One more than the greatest integer of 64 bits. -/
def wordBound : Nat := Nat.pow 2 63

/-- An integer of 64 bits. -/
def integer (rules : DigitRules) (start : Nat) (cs : List Char) : Except Failure Value := do
  let (ds, after) ← digits rules start cs
  let i := ds.value rules.base
  if !after.isEmpty || i < -(wordBound : Int) || wordBound ≤ i then
    .error (.atByte start .invalidNumber)
  else .ok (.integer i)

/-- The rules of decimal integers. -/
def decimalRules : DigitRules := ⟨10, true, false⟩

/-- The rules of the digits after a point. -/
def fractionRules : DigitRules := ⟨10, false, true⟩

/-- The rules of an exponent right after its letter. -/
def exponentRules : DigitRules := ⟨10, true, true⟩

/-- The double that decimal digits write, unless it is too large for one. -/
def double (start : Nat) (whole fraction : Digits) (exponent : Int) : Except Failure Value :=
  let ds : Digits := ⟨false, whole.digits ++ fraction.digits⟩
  let x := Double.ofDecimal whole.negative (ds.value 10).toNat (exponent - fraction.digits.length)
  match x with
  | .finite _ _ _ => .ok (.float x)
  | _ => .error (.atByte start .invalidNumber)

/-- A number with an exponent or a fraction: the word before the point, the word after it if there
is a point, and the signs that follow. An exponent may go on in the next word after a plus. -/
def floating (start : Nat) (word : List Char) (fraction : Option (Nat × List Char)) (ts : Tokens) :
    Except Failure (Value × Tokens) := do
  let (whole, suffix) ← digits decimalRules start word
  let (part, suffix) ← match fraction with
    | none => Except.ok ((⟨false, []⟩ : Digits), suffix)
    | some (offset, after) =>
      if !suffix.isEmpty then Except.error (.atByte start .invalidNumber)
      else digits fractionRules offset after
  let suffixStart := match fraction with
    | none => start + (word.length - suffix.length)
    | some (offset, after) => offset + (after.length - suffix.length)
  match suffix with
  | [] => do .ok (← double start whole part 0, ts)
  | letter :: more =>
    if letter ≠ 'e' ∧ letter ≠ 'E' then .error (.atByte start .invalidNumber)
    else
      let ((exponent, rest), ts) ← match more with
        | [] =>
          let ts ← match ts with
            | .token _ .plus rest => Except.ok rest
            | .broken _ f => Except.error f
            | ts => Except.ok ts
          match ts with
          | .token n (.word w) rest => do
            Except.ok (← digits fractionRules n w.toList, rest)
          | .broken _ f => Except.error f
          | _ => Except.error (.atByte start .invalidNumber)
        | more => do Except.ok (← digits exponentRules (suffixStart + 1) more, ts)
      if !rest.isEmpty then .error (.atByte start .invalidNumber)
      else do .ok (← double start whole part (exponent.value 10), ts)

/-- A number that starts with a word at byte `first`, as a value that starts at byte `start`. One
with a point starts where its fraction does. -/
def number (start first : Nat) (word : String) (ts : Tokens) : Except Failure (Placed × Tokens) :=
  let cs := word.toList
  let based := fun (base : Nat) (rest : List Char) => do
    let v ← integer ⟨base, false, true⟩ (first + 2) rest
    Except.ok (((start, v) : Placed), ts)
  match cs with
  | '0' :: 'x' :: rest => based 16 rest
  | '0' :: 'o' :: rest => based 8 rest
  | '0' :: 'b' :: rest => based 2 rest
  | _ =>
    if cs.contains 'e' || cs.contains 'E' then do
      let (v, ts) ← floating first cs none ts
      .ok ((start, v), ts)
    else
      match ts with
      | .broken _ f => .error f
      | .token _ .period rest =>
        match rest with
        | .token n (.word after) rest => do
          let (v, ts) ← floating first cs (some (n, after.toList)) rest
          .ok ((n, v), ts)
        | .broken _ f => .error f
        | ts => .error (.atByte ts.offset .invalidNumber)
      | ts =>
        match word with
        | "inf" => .ok ((start, .float (.infinite false)), ts)
        | "-inf" => .ok ((start, .float (.infinite true)), ts)
        | "nan" | "-nan" => .ok ((start, .float .nan), ts)
        | _ => do .ok ((start, ← integer decimalRules first cs), ts)

/-- Whether a word begins a date: it has the letter between a date and a time, or dashes between
numbers. -/
def isDate (word : String) : Bool :=
  let cs := word.toList
  let hasExponent := fun (letter : Char) => (cs.zip cs.tail).contains (letter, '-')
  cs.contains 'T' || cs.contains 't' ||
    (cs.tail.contains '-' && !hasExponent 'e' && !hasExponent 'E')

/-- A word, or what is wrong with a date. -/
def dateWord (start : Nat) : Tokens → Except Failure Tokens
  | .token _ (.word _) rest => .ok rest
  | .broken _ f => .error f
  | _ => .error (.atByte start .invalidDate)

/-- The signs after one that may come next, and whether it did. -/
def optional (t : Token) : Tokens → Except Failure (Bool × Tokens)
  | .token n found rest => .ok (if found = t then (true, rest) else (false, .token n found rest))
  | .broken _ f => .error f
  | ts => .ok (false, ts)

/-- The signs after a word that has to come if the sign before it did. -/
def optionalWord (start : Nat) (t : Token) (ts : Tokens) : Except Failure Tokens := do
  let (found, ts) ← optional t ts
  if found then dateWord start ts else .ok ts

/-- A date or a time after its first word, and after a colon if there was one. What it says is not
looked at. -/
def date (start : Nat) (colon : Bool) (ts : Tokens) : Except Failure (Placed × Tokens) := do
  let ts := match ts with
    | .token _ (.blanks true) (.token _ (.word _) rest) => rest
    | ts => ts
  let (timed, ts) ← if colon then Except.ok (true, ts) else optional .colon ts
  if timed then
    let ts ← dateWord start ts
    let ts ← ts.expect .colon
    let ts ← dateWord start ts
    let ts ← optionalWord start .period ts
    let ts ← optionalWord start .plus ts
    let ts ← optionalWord start .colon ts
    .ok ((start, .date), ts)
  else .ok ((start, .date), ts)

/-- The value of a word: a number, a date, or one of a few names. -/
def wordValue (start : Nat) (word : String) (ts : Tokens) : Except Failure (Placed × Tokens) :=
  if word = "true" then .ok ((start, .boolean true), ts)
  else if word = "false" then .ok ((start, .boolean false), ts)
  else
    let isNumber := word.toList.head?.any fun c => c == '-' || c.isDigit
    if isNumber || word = "inf" || word = "nan" then
      if isDate word then date start false ts
      else do
        let (colon, ts) ← optional .colon ts
        if colon then date start true ts else number start start word ts
    else .error (.atByte start .unquotedString)

/-! ## Values

Every call takes a sign or passes on to one that does, so `fuel` never runs out if there is twice as
much of it as there are signs. -/

mutual

/-- A value and the signs after it. -/
def value : Nat → Tokens → Except Failure (Placed × Tokens)
  | _, .finish n => .error (.atByte n .valueMissing)
  | _, .broken _ f => .error f
  | 0, .token n _ _ => .error (.atByte n .valueMissing)
  | fuel + 1, .token n t rest =>
    match t with
    | .text s _ => .ok ((n, .text s), rest)
    | .word w => wordValue n w rest
    | .plus =>
      match rest with
      | .token m (.word w) rest => number n m w rest
      | .broken _ f => .error f
      | ts => .error (.atByte ts.offset .invalidNumber)
    | .leftBrace => do
      let (closed, ts) ← optional .rightBrace rest.skipBlanks
      if closed then .ok ((n, .table false []), ts)
      else do
        let (pairs, ts) ← inlinePairs fuel [] ts
        .ok ((n, .table false pairs), ts)
    | .leftBracket => do
      let (items, ts) ← arrayItems fuel rest
      .ok ((n, .array items), ts)
    | _ => Tokens.refuse "a value" (.token n t rest)

/-- The items of an array up to its closing bracket. -/
def arrayItems : Nat → Tokens → Except Failure (List Placed × Tokens)
  | 0, ts => .error (.atByte ts.offset .valueMissing)
  | fuel + 1, ts => do
    let (closed, ts) ← optional .rightBracket ts.skipLines
    if closed then .ok ([], ts)
    else do
      let (item, ts) ← value fuel ts
      let (more, ts) ← optional .comma ts.skipLines
      if more then do
        let (items, ts) ← arrayItems fuel ts
        .ok (item :: items, ts)
      else do
        let ts ← ts.skipLines.expect .rightBracket
        .ok ([item], ts)

/-- The pairs of a table in braces up to its closing brace, after those read before. -/
def inlinePairs : Nat → List Pair → Tokens → Except Failure (List Pair × Tokens)
  | 0, _, ts => .error (.atByte ts.offset .valueMissing)
  | fuel + 1, pairs, ts => do
    let ((k, ks), ts) ← dottedKeys fuel ts
    let ts ← ts.skipBlanks.expect .equals
    let (v, ts) ← value fuel ts.skipBlanks
    let pairs ← addPair k ks v pairs
    let (closed, ts) ← optional .rightBrace ts.skipBlanks
    if closed then .ok (pairs, ts)
    else do
      let ts ← ts.expect .comma
      inlinePairs fuel pairs ts.skipBlanks

end

/-! ## Lines and tables -/

/-- A header after its first bracket: whether it is one of an array, its keys, and the signs after
its line. -/
def header (fuel : Nat) (ts : Tokens) : Except Failure ((Bool × List String) × Tokens) := do
  let (isArray, ts) ← optional .leftBracket ts
  let ((k, ks), ts) ← dottedKeys fuel ts.skipBlanks
  let ts ← ts.expect .rightBracket
  let ts ← if isArray then ts.expect .rightBracket else .ok ts
  let ts ← ts.finishLine
  .ok ((isArray, k :: ks), ts)

/-- A pair on a line of its own, and the signs after the line. -/
def pairLine (fuel : Nat) (ts : Tokens) :
    Except Failure ((String × List String × Placed) × Tokens) := do
  let ((k, ks), ts) ← dottedKeys fuel ts
  let ts ← ts.skipBlanks.expect .equals
  let (v, ts) ← value fuel ts.skipBlanks
  let ts ← ts.finishLine
  .ok ((k, ks, v), ts)

/-- The root before its first pair. -/
def Table.root : Table := ⟨0, [], false, []⟩

/-- Whether a table is part of the document; the root is only if it has pairs. -/
def Table.counts (t : Table) : Bool := !t.header.isEmpty || !t.pairs.isEmpty

/-- The tables from the current one on. Every round takes a line, so `fuel` never runs out if there
is twice as much of it as there are signs. -/
def tablesFrom : Nat → Table → Tokens → Except Failure (List Table)
  | 0, current, _ => .ok [current]
  | fuel + 1, current, ts =>
    match ts.skipLines with
    | .finish _ => .ok [current]
    | .broken _ f => .error f
    | .token n .leftBracket rest => do
      let ((isArray, keys), ts) ← header fuel rest
      let tables ← tablesFrom fuel ⟨n, keys, isArray, []⟩ ts
      .ok (current :: tables)
    | ts => do
      let ((k, ks, v), ts) ← pairLine fuel ts
      let pairs ← addPair k ks v current.pairs
      tablesFrom fuel { current with pairs } ts

/-- The tables of a text. -/
def Document.ofText (text : String) : Except Failure Document := do
  let ts := Tokens.ofText text
  let tables ← tablesFrom (2 * ts.length + 1) Table.root ts
  .ok ⟨tables.filter Table.counts⟩

/-- The byte that a failure without a place of its own is found at: the start of the last table. -/
def Document.lastStart? (d : Document) : Option Nat := d.tables.getLast?.map Table.start

end CompileFlags.Toml
