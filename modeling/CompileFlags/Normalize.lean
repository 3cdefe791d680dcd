import CompileFlags.Flag
import CompileFlags.Path

/-!
# Resolving the paths of a flag list

Relative paths in flags are resolved against a root. A root is a text, because the paths in flags
are texts; the empty root stands for no directory at all.

A flag list is read from its start, entry by entry. What is remembered from one entry to the next is
whether the entry is the path of the separate prefix before it; such an entry is never looked at as
a flag itself. A separate prefix at the very end has no path.

* `rewrites` says what becomes of each entry under a root.
* `normalize` are the entries that come of it, and `resolutions` what a log is told on the way.
* `normalize_none` — without a root nothing changes.
* `length_normalize` — a flag list keeps its length.
-/

namespace CompileFlags

/-! ## Roots -/

/-- A directory to resolve paths against. -/
structure Root where
  text : String
  deriving DecidableEq, Repr

namespace Root

/-- The root as a path. -/
def path (r : Root) : Path := .ofString r.text

/-- Whether a root is no directory. -/
def isEmpty (r : Root) : Bool := r.text.isEmpty

/-- A path seen from the root. -/
def join (r : Root) (p : String) : String := (r.path.join (.ofString p)).display

end Root

/-! ## Flag lists -/

/-- What becomes of an entry. -/
inductive Rewrite where
  | kept (entry : String)
  /-- The path of the entry was resolved, whether that changed it or not. -/
  | resolved (entry result : String)
  deriving DecidableEq, Repr

namespace Rewrite

/-- The entry afterwards. -/
def result : Rewrite → String
  | kept entry => entry
  | resolved _ result => result

/-- The resolution of a path, as a log tells it. -/
def resolution? : Rewrite → Option (String × String)
  | kept _ => none
  | resolved entry result => some (entry, result)

/-- The path of a separate prefix. An absolute path is kept without asking the root. -/
def ofValue (r : Root) (path : String) : Rewrite :=
  if path.toList.head? = some '/' || (Path.ofString path).isAbsolute then kept path
  else resolved path (r.join path)

/-- An attached prefix and its path. Here the root sees to absolute paths. -/
def ofAttached (r : Root) (p : PathPrefix) (path : String) : Rewrite :=
  resolved (p.spelling ++ path) (p.spelling ++ r.join path)

/-- What becomes of an entry. `pending` says whether it is the path of the prefix before it. -/
def ofEntry (r : Root) (pending : Bool) (entry : String) : Rewrite :=
  if pending then ofValue r entry
  else
    match Flag.parse entry with
    | .plain | .separate _ => kept entry
    | .attached p path => ofAttached r p path

end Rewrite

/-- Whether an entry takes the next one as its path, given whether it is a path itself. -/
def pendingAfter (pending : Bool) (entry : String) : Bool :=
  !pending && (Flag.parse entry).takesNext

/-- What becomes of the entries of a flag list. `pending` says whether the first of them is the path
of the prefix before it. -/
def rewrites (r : Root) (pending : Bool) : List String → List Rewrite
  | [] => []
  | entry :: rest => .ofEntry r pending entry :: rewrites r (pendingAfter pending entry) rest

/-- The flags with every path resolved against the root. -/
def normalize (flags : List String) : Option Root → List String
  | none => flags
  | some r => if r.isEmpty then flags else (rewrites r false flags).map Rewrite.result

/-- The resolutions that `normalize` makes, in order. -/
def resolutions (flags : List String) : Option Root → List (String × String)
  | none => []
  | some r => if r.isEmpty then [] else (rewrites r false flags).filterMap Rewrite.resolution?

/-- Without a root nothing changes. -/
theorem normalize_none (flags : List String) : normalize flags none = flags := rfl

/-- Under an empty root nothing changes. -/
theorem normalize_of_isEmpty (flags : List String) {r : Root} (h : r.isEmpty = true) :
    normalize flags (some r) = flags := by
  simp [normalize, h]

theorem length_rewrites (r : Root) (pending : Bool) (flags : List String) :
    (rewrites r pending flags).length = flags.length := by
  induction flags generalizing pending with
  | nil => rfl
  | cons entry rest ih => rw [rewrites, List.length_cons, ih, List.length_cons]

/-- A flag list keeps its length. -/
@[simp]
theorem length_normalize (flags : List String) (root : Option Root) :
    (normalize flags root).length = flags.length := by
  cases root with
  | none => rfl
  | some r =>
    rw [normalize]
    split
    · rfl
    · rw [List.length_map, length_rewrites]

end CompileFlags
