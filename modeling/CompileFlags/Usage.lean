import CompileFlags.Text.Character
import CompileFlags.Text.Pieces
import CompileFlags.Text.Utf8
import CompileFlags.Text.Wrap

/-!
# Usages

What a help text says of an option: how it is written, what it does in a few words, and what it does
at length. A list of usages is laid out as a table, or with the long texts below each option.

* `Usage.isSome_rows?` — the first column of the table is wide enough for each format.
-/

namespace CompileFlags

/-- The documentation of an option. -/
structure Usage where
  /-- How the option is written. -/
  format : String
  /-- What it does, on one line. -/
  short : String
  /-- What it does, in paragraphs with a blank line between each two. -/
  long : String
  deriving DecidableEq, Repr

namespace Usage

open CompileFlags.Text (trim wrap)

/-- So many spaces. -/
def blanks (n : Nat) : String := .ofList (List.replicate n ' ')

theorem toList_blanks (n : Nat) : (blanks n).toList = List.replicate n ' ' := String.toList_ofList

/-- The space in front of an option. -/
def margin : Nat := 4

/-- The least space between the columns of the table. -/
def gap : Nat := 2

/-- The space in front of a paragraph. -/
def indent : Nat := 8

/-- How wide the lines of a help text are. -/
def lineWidth : Nat := 79

/-- The length of the longest format, in bytes. -/
def formatWidth (usages : List Usage) : Nat :=
  usages.foldl (fun n u => max n u.format.utf8ByteSize) 0

/-- What a column of the given width has left behind a format, if the format fits into it. -/
def spare? (columnWidth : Nat) (u : Usage) : Option Nat :=
  if u.format.utf8ByteSize ≤ columnWidth then some (columnWidth - u.format.utf8ByteSize) else none

/-- A line of the table, with a first column of the given width. -/
def row? (columnWidth : Nat) (u : Usage) : Option String :=
  (spare? columnWidth u).map fun n =>
    blanks margin ++ u.format ++ blanks (gap + n) ++ u.short

/-- The lines of the table. -/
def rows? (usages : List Usage) : Option (List String) := usages.mapM (row? (formatWidth usages))

theorem formatWidth_eq_max? (usages : List Usage) :
    formatWidth usages = (usages.map fun u => u.format.utf8ByteSize).max?.getD 0 := by
  rw [formatWidth, ← List.foldl_map (f := fun u : Usage => u.format.utf8ByteSize) (g := max),
    List.foldl_max, Nat.zero_max]

theorem le_formatWidth {usages : List Usage} {u : Usage} (h : u ∈ usages) :
    u.format.utf8ByteSize ≤ formatWidth usages := by
  rw [formatWidth_eq_max?]
  exact List.le_max?_getD_of_mem (List.mem_map_of_mem h)

theorem isSome_mapM {α β : Type} {f : α → Option β} {l : List α}
    (h : ∀ a ∈ l, (f a).isSome = true) : (l.mapM f).isSome = true := by
  induction l with
  | nil => rfl
  | cons a l ih =>
    obtain ⟨b, hb⟩ := Option.isSome_iff_exists.1 (h a List.mem_cons_self)
    obtain ⟨bs, hbs⟩ := Option.isSome_iff_exists.1 (ih fun a ha => h a (List.mem_cons_of_mem _ ha))
    rw [List.mapM_cons, hb, hbs]
    rfl

/-- No format is wider than the first column. -/
theorem isSome_rows? (usages : List Usage) : (rows? usages).isSome = true := by
  apply isSome_mapM
  intro u hu
  rw [row?, spare?, if_pos (le_formatWidth hu)]
  rfl

/-- The table of usages. -/
def table (usages : List Usage) : String :=
  String.join (((rows? usages).get (isSome_rows? usages)).map (· ++ "\n"))

/-- A text cut at blank lines, which are two newlines on end. -/
def paragraphs : List Char → List (List Char)
  | '\n' :: '\n' :: rest => [] :: paragraphs rest
  | c :: rest =>
    match paragraphs rest with
    | [] => [[c]]
    | first :: more => (c :: first) :: more
  | [] => [[]]

/-- The characters of a paragraph on one line. -/
def flattened (cs : List Char) : List Char := cs.map fun c => if c = '\n' then ' ' else c

/-- The lines of a paragraph. -/
def paragraphLines (cs : List Char) : List String :=
  (wrap (lineWidth - indent) (flattened cs)).map fun line => blanks indent ++ .ofList line

/-- The lines of a long text, with an empty line between each two paragraphs. -/
def longLines (u : Usage) : List String :=
  joinPieces [""] ((paragraphs (trim u.long.toList)).map paragraphLines)

/-- The lines of a usage with its long text. -/
def lines (u : Usage) : List String := (blanks margin ++ u.format) :: u.longLines

/-- The usages with their long texts, and an empty line between each two. -/
def manual (usages : List Usage) : String :=
  String.join ((joinPieces [""] (usages.map lines)).map (· ++ "\n"))

end Usage

end CompileFlags
