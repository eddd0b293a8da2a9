/-
  Tables drawn with lines.

  A column is as wide as the widest line of its cells, and has a blank on both sides. A cell of
  several lines makes its row as high as itself. A line is drawn around the table, between its
  columns and between its rows, a double one below the header.

  * `Table`: a header and rows of cells.
  * `Table.lines`: the lines of its drawing.
-/
import Vitals.Text.Width

namespace Vitals.Text

/-- A header and rows, all of one length. -/
structure Table where
  header : List String
  rows : List (List String)
  deriving DecidableEq, Repr

namespace Table

/-- The lines of a cell. -/
def cellLines (cell : String) : List String := cell.splitOn "\n"

/-- The cells of the widest line of a cell. -/
def cellWidth (cell : String) : Nat := ((cellLines cell).map width).foldl max 0

/-- The widths of the columns. -/
def columnWidths (t : Table) : List Nat :=
  t.rows.foldl (fun widths row => List.zipWith max widths (row.map cellWidth))
    (t.header.map cellWidth)

/-- The characters of a horizontal line. -/
structure Border where
  left : String
  fill : Char
  crossing : String
  right : String

/-- The line above a table. -/
def top : Border := ⟨"┌", '─', "┬", "┐"⟩

/-- The line below the header. -/
def belowHeader : Border := ⟨"╞", '═', "╪", "╡"⟩

/-- The line between two rows. -/
def between : Border := ⟨"├", '╌', "┼", "┤"⟩

/-- The line below a table. -/
def bottom : Border := ⟨"└", '─', "┴", "┘"⟩

/-- A horizontal line over columns of some widths. -/
def Border.draw (r : Border) (widths : List Nat) : String :=
  let parts := widths.map fun w => String.ofList (List.replicate (w + 2) r.fill)
  r.left ++ r.crossing.intercalate parts ++ r.right

/-- A line of a cell with a blank on both sides, filled up to a width. -/
def pad (w : Nat) (line : String) : String :=
  " " ++ line ++ String.ofList (List.replicate (w - width line) ' ') ++ " "

/-- One line of a row. -/
def drawLine (widths : List Nat) (cells : List String) : String :=
  "│" ++ "┆".intercalate (List.zipWith pad widths cells) ++ "│"

/-- The lines of a row. A cell with fewer lines than the highest is empty below them. -/
def drawRow (widths : List Nat) (row : List String) : List String :=
  let cells := row.map cellLines
  let height := (cells.map List.length).foldl max 0
  (List.range height).map fun i => drawLine widths (cells.map fun lines => lines.getD i "")

/-- The rows with lines between them. -/
def drawRows (widths : List Nat) (rows : List (List String)) : List String :=
  [between.draw widths].intercalate (rows.map (drawRow widths))

/-- The lines of a table. Without rows, the line around the table follows the header at once. -/
def lines (t : Table) : List String :=
  let widths := t.columnWidths
  let body := if t.rows.isEmpty then [] else drawRows widths t.rows
  top.draw widths :: drawRow widths t.header ++ belowHeader.draw widths :: body ++
    [bottom.draw widths]

/-- The drawing of a table. -/
def render (t : Table) : String := "\n".intercalate t.lines

end Table

end Vitals.Text
