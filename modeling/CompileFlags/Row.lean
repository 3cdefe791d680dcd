import CompileFlags.Project

/-!
# Rows

The flags of a project as rows of a table, each with what it is, how it is written and what it is
resolved to: first the flags of all files, then those that each language adds. A separate prefix
stands in one row with the entry that it takes as its path.

* `Row.scan?` goes through a flag list and takes the entries of each row out of it, and out of what
  normalization makes of the whole list.
* `Row.isSome_scan?` — the entries that it takes are always there.
-/

namespace CompileFlags

/-- A row of the table of flags. -/
structure Row where
  kind : String
  written : String
  resolved : String
  deriving DecidableEq, Repr

namespace Flag

/-- What a flag is called in the table. -/
def kind : Flag → String
  | plain => "plain"
  | separate p | attached p _ => p.spelling

/-- How many entries a flag has, unless the list ends before. -/
def width (f : Flag) : Nat := if f.takesNext then 2 else 1

theorem one_le_width (f : Flag) : 1 ≤ f.width := by
  unfold width
  split <;> decide

end Flag

namespace Row

/-- The entries from one place up to another, if both places are in the list in this order. -/
def slice? (entries : Array String) (start stop : Nat) : Option (List String) :=
  if start ≤ stop ∧ stop ≤ entries.size then some (entries.extract start stop).toList else none

/-- The row of a flag with its entries, as they are written and as they are resolved. -/
def ofEntries (f : Flag) (written resolved : List String) : Row where
  kind := f.kind
  written := String.intercalate " " written
  resolved := String.intercalate " " resolved

/-- The rows of the flags from a place on, after those of the flags before it. `resolved` is what
normalization makes of all flags. -/
def scan? (flags resolved : Array String) (i : Nat) (rows : Array Row) : Option (Array Row) :=
  if h : i < flags.size then
    let flag := Flag.parse flags[i]
    -- a separate prefix at the very end has no path to take
    let stop := min (i + flag.width) flags.size
    match slice? flags i stop, slice? resolved i stop with
    | some written, some result =>
      scan? flags resolved stop (rows.push (ofEntries flag written result))
    | _, _ => none
  else some rows
termination_by flags.size - i
decreasing_by
  have := (Flag.parse flags[i]).one_le_width
  omega

theorem slice?_of_le {entries : Array String} {start stop : Nat} (h : start ≤ stop)
    (hstop : stop ≤ entries.size) :
    slice? entries start stop = some (entries.extract start stop).toList :=
  if_pos ⟨h, hstop⟩

/-- With as many entries resolved as there are, no row asks for entries that are not there. -/
theorem isSome_scan? {flags resolved : Array String} (h : resolved.size = flags.size) (i : Nat)
    (rows : Array Row) : (scan? flags resolved i rows).isSome = true := by
  fun_induction scan? flags resolved i rows with
  | case1 i rows hi flag stop written result hw hr ih => exact ih
  | case2 i rows hi flag stop hnone =>
    have hle : i ≤ stop := by
      have := flag.one_le_width
      omega
    have hstop : stop ≤ flags.size := Nat.min_le_right _ _
    exact (hnone _ _ (slice?_of_le hle hstop) (slice?_of_le hle (h ▸ hstop))).elim
  | case3 => rfl

/-- The rows of a flag list whose paths are resolved against a root. -/
def ofFlags? (flags : List String) (root : Option Root) : Option (Array Row) :=
  scan? flags.toArray (normalize flags root).toArray 0 #[]

theorem isSome_ofFlags? (flags : List String) (root : Option Root) :
    (ofFlags? flags root).isSome = true :=
  isSome_scan? (by simp) 0 #[]

/-- The row of a flag that a language adds. -/
def ofLanguageFlag (l : Language) (flag : String) : Row := ⟨l.name, flag, flag⟩

end Row

/-- The rows of a project. -/
def Project.rows (p : Project) : List Row :=
  ((Row.ofFlags? p.catalog.flags p.root).get (Row.isSome_ofFlags? _ _)).toList ++
    [Language.c, .cpp].flatMap fun l =>
      (p.catalog.languageFlags l).map (Row.ofLanguageFlag l)

end CompileFlags
