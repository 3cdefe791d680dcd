import CompileFlags.Row
import CompileFlags.Style
import CompileFlags.Text.Columns
import CompileFlags.Text.Pieces

/-!
# Tables

A text in which tabs separate the cells of a line is laid out so that cells below each other start
in the same column. Only a cell with another after it has a width. Lines that follow each other and
have such a cell in the same place share its width; the first line without one ends the column.

* `Table.align` lays out a text.
* `Row.table` is the table of the flags of a project.
-/

namespace CompileFlags

namespace Table

/-- The least width of a column, and the space after it. -/
def minWidth : Nat := 2
def padding : Nat := 2

/-- The columns that a cell takes. -/
def cellWidth (cell : List Char) : Nat := Text.columns (unstyled cell)

/-- The widths that the cells of a line need, apart from the last. -/
def cellWidths (cells : List (List Char)) : List Nat :=
  cells.dropLast.map fun cell => max minWidth (cellWidth cell)

/-- The widths of a line, given those of the line below: each as wide as the cell below it needs. -/
def widen : List Nat → List Nat → List Nat
  | [], _ => []
  | ws, [] => ws
  | w :: ws, below :: rest => max w below :: widen ws rest

/-- The widths of a line, given those of the line above, which it takes over where it has a cell. -/
def inherit : List Nat → List Nat → List Nat
  | _, [] => []
  | [], ws => ws
  | above :: rest, _ :: ws => above :: inherit rest ws

/-- For each line the widths that it and the lines of its columns below it need. -/
def neededBelow : List (List Nat) → List (List Nat)
  | [] => []
  | ws :: rest =>
    let below := neededBelow rest
    widen ws (below.headD []) :: below

/-- For each line the widths of its columns. The first line of a column has all others below it, and
what it needs is passed on to them. -/
def passDown (above : List Nat) : List (List Nat) → List (List Nat)
  | [] => []
  | ws :: rest =>
    let here := inherit above ws
    here :: passDown here rest

/-- The widths of the columns on each line. -/
def columnWidths (lines : List (List (List Char))) : List (List Nat) :=
  passDown [] (neededBelow (lines.map cellWidths))

/-- A line with its cells filled up to the widths. -/
def fill : List (List Char) → List Nat → List Char
  | cell :: cells, w :: ws =>
    cell ++ List.replicate (w - cellWidth cell + padding) ' ' ++ fill cells ws
  | cells, _ => cells.flatten

/-- The lines of a text, cut into cells. -/
def cells (text : List Char) : List (List (List Char)) :=
  (pieces (· == '\n') text).map (pieces (· == '\t'))

/-- A text with its cells below each other. -/
def align (text : List Char) : List Char :=
  let lines := cells text
  joinPieces ['\n'] (List.zipWith fill lines (columnWidths lines))

end Table

/-- The first line of the table of flags. -/
def Row.header : List Char := "kind\twritten\tresolved\n".toList

/-- A row of the table of flags, with the kind set off unless it is that of entries without a
path. -/
def Row.line (colored : Bool) (r : Row) : List Char :=
  let kind := r.kind.toList
  (if r.kind = "plain" then kind else Style.note.apply colored kind) ++
    '\t' :: r.written.toList ++ '\t' :: r.resolved.toList ++ ['\n']

/-- The table of flags. -/
def Row.table (colored : Bool) (rows : List Row) : String :=
  .ofList (Table.align
    (Style.label.apply colored Row.header ++ rows.flatMap (Row.line colored)))

end CompileFlags
