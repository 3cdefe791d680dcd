import CompileFlags.Text.Utf8

/-!
# Flags

The compiler flags that introduce a search path. A prefix of the separate shape is an entry of its
own and takes the next entry as its path; one of the attached shape starts the entry that holds its
path.

* `Flag.parse` classifies one entry of a flag list.
* `PathPrefix.isUnambiguous` says of a list of prefixes that none of them hides another;
  `PathPrefix.isSome_isUnambiguous?` — every place that it looks at is there.
-/

namespace CompileFlags

/-- How a prefix and its path are laid out in a flag list. -/
inductive Shape where
  /-- The path is the next entry, as in `-I include`. -/
  | separate
  /-- The path is the rest of the entry, as in `--sysroot=sdk`. -/
  | attached
  deriving DecidableEq, Repr

/-- The spellings that introduce a path. -/
inductive PathPrefix where
  | system
  | user
  | quote
  | sysroot
  deriving DecidableEq, Repr

namespace PathPrefix

/-- All prefixes, in the order in which they are tried. -/
def all : List PathPrefix := [system, user, quote, sysroot]

/-- The text of a prefix. -/
def spelling : PathPrefix → String
  | system => "-isystem"
  | user => "-I"
  | quote => "-iquote"
  | sysroot => "--sysroot="

/-- Where the path of a prefix stands. -/
def shape : PathPrefix → Shape
  | system | user | quote => .separate
  | sysroot => .attached

theorem mem_all (p : PathPrefix) : p ∈ all := by
  cases p <;> simp [all]

/-- The bytes of a prefix. -/
def bytes (p : PathPrefix) : Array UInt8 := (Utf8.encode p.spelling).toArray

/-- Whether bytes begin others, compared place by place. A place that is not there has no answer. -/
def begins? (start bytes : Array UInt8) : Option Bool :=
  if bytes.size < start.size then some false
  else (List.range start.size).allM fun i => do
    let a ← start[i]?
    let b ← bytes[i]?
    pure (a == b)

/-- Whether the prefix in one place of a list takes no entries away from the one in another: if one
of them is attached, the spelling of the first must not begin that of the second. Two separate
prefixes are compared with whole entries and never get in each other's way. -/
def isClear? (ps : Array PathPrefix) (i j : Nat) : Option Bool := do
  let a ← ps[i]?
  let b ← ps[j]?
  if i ≠ j ∧ (a.shape = .attached ∨ b.shape = .attached) then
    (begins? a.bytes b.bytes).map fun hidden => !hidden
  else pure true

/-- Whether each place of a list is clear of each other one. -/
def isUnambiguous? (ps : Array PathPrefix) : Option Bool :=
  (List.range ps.size).allM fun i => (List.range ps.size).allM fun j => isClear? ps i j

/-- A check of a whole list has an answer if each of its checks has one. -/
theorem isSome_allM {α : Type} {check : α → Option Bool} {l : List α}
    (h : ∀ a ∈ l, (check a).isSome = true) : (l.allM check).isSome = true := by
  induction l with
  | nil => rfl
  | cons a l ih =>
    obtain ⟨answer, ha⟩ := Option.isSome_iff_exists.1 (h a List.mem_cons_self)
    have hl := ih fun b hb => h b (List.mem_cons_of_mem _ hb)
    simp only [List.allM, ha, Option.bind_eq_bind, Option.bind_some]
    cases answer with
    | true => exact hl
    | false => rfl

/-- Bytes that are long enough have a byte in every place that is looked at. -/
theorem isSome_begins? (start bytes : Array UInt8) : (begins? start bytes).isSome = true := by
  unfold begins?
  split
  · rfl
  · apply isSome_allM
    intro i hi
    have hstart : i < start.size := List.mem_range.1 hi
    have hbytes : i < bytes.size := by omega
    rw [Array.getElem?_eq_getElem hstart, Array.getElem?_eq_getElem hbytes]
    rfl

theorem isSome_isClear? {ps : Array PathPrefix} {i j : Nat} (hi : i < ps.size) (hj : j < ps.size) :
    (isClear? ps i j).isSome = true := by
  simp only [isClear?, Array.getElem?_eq_getElem hi, Array.getElem?_eq_getElem hj,
    Option.bind_eq_bind, Option.bind_some]
  split
  · rw [Option.isSome_map]
    exact isSome_begins? _ _
  · rfl

/-- No place is asked for that is not in the list. -/
theorem isSome_isUnambiguous? (ps : Array PathPrefix) : (isUnambiguous? ps).isSome = true :=
  isSome_allM fun _ hi => isSome_allM fun _ hj =>
    isSome_isClear? (List.mem_range.1 hi) (List.mem_range.1 hj)

/-- Whether no prefix in the list hides another entry of the list. -/
def isUnambiguous (ps : List PathPrefix) : Bool :=
  (isUnambiguous? ps.toArray).get (isSome_isUnambiguous? _)

end PathPrefix

/-- An entry of a flag list. -/
inductive Flag where
  /-- An entry without a path. -/
  | plain
  /-- A prefix whose path is the next entry. -/
  | separate (p : PathPrefix)
  /-- A prefix and its path in one entry. -/
  | attached (p : PathPrefix) (path : String)
  deriving DecidableEq, Repr

namespace Flag

/-- The entry as one with this prefix: a separate prefix has to be the whole entry, an attached one
its beginning. -/
def matchPrefix? (p : PathPrefix) (entry : String) : Option Flag :=
  match p.shape with
  | .separate => if entry = p.spelling then some (.separate p) else none
  | .attached =>
    (p.spelling.toList.isPrefixOf? entry.toList).map fun path => .attached p (.ofList path)

/-- Classifies an entry by the first of the prefixes that it has. -/
def parseWith (prefixes : List PathPrefix) (entry : String) : Flag :=
  (prefixes.findSome? (matchPrefix? · entry)).getD .plain

/-- Classifies an entry of a flag list. -/
def parse (entry : String) : Flag := parseWith PathPrefix.all entry

/-- Whether the entry after this one is its path. -/
def takesNext : Flag → Bool
  | separate _ => true
  | _ => false

end Flag

/-- No prefix hides another. -/
theorem PathPrefix.isUnambiguous_all : isUnambiguous all = true := by decide

end CompileFlags
