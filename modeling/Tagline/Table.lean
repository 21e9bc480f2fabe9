import Tagline.Text.Columns

/-!
# Tables

A table of cells in ASCII lines, every column as wide as its widest cell:

    +-------+-------+
    | Field | Value |
    +===============+
    | Type  | Run   |
    |-------+-------|
    | Place | Ulm   |
    +-------+-------+

A line break in a cell makes a further line of its row.  A column is at least
one character wide, and a cell has a blank on either side.
-/

namespace Tagline

/-- A header and rows of the same number of cells. -/
structure Table where
  header : List Text
  rows : List (List Text)

namespace Table

/-- The lines of a cell. -/
def cellLines (cell : Text) : List Text :=
  Text.pieces ['\n'] cell

/-- The width of the widest line of a cell. -/
def cellWidth (cell : Text) : Nat :=
  ((cellLines cell).map Text.columns).foldl max 0

/-- The widths of the columns. -/
def widths (t : Table) : List Nat :=
  t.rows.foldl (fun ws row => List.zipWith max ws (row.map cellWidth))
    (t.header.map fun cell => max 1 (cellWidth cell))

/-- A text filled up with blanks to a width. -/
def pad (width : Nat) (t : Text) : Text :=
  t ++ List.replicate (width - Text.columns t) ' '

/-- One line of a row. -/
def rowLine (widths : List Nat) (cells : List Text) : Text :=
  let padded := List.zipWith (fun w cell => ' ' :: (pad w cell ++ [' '])) widths cells
  '|' :: (List.intercalate ['|'] padded ++ ['|'])

/-- The lines of a row, as many as its highest cell has. -/
def rowLines (widths : List Nat) (cells : List Text) : List Text :=
  let columns := cells.map cellLines
  let height := (columns.map List.length).foldl max 0
  (List.range height).map fun i => rowLine widths (columns.map fun lines => lines.getD i [])

/-- A line across the table: the character at both ends, the one that fills, and
the one between two columns. -/
def ruler (ends fill cross : Char) (widths : List Nat) : Text :=
  ends :: (List.intercalate [cross] (widths.map fun w => List.replicate (w + 2) fill) ++ [ends])

/-- The lines of a table. -/
def lines (t : Table) : List Text :=
  let ws := t.widths
  let edge := ruler '+' '-' '+' ws
  let between := ruler '|' '-' '+' ws
  [edge] ++ rowLines ws t.header ++ [ruler '+' '=' '=' ws]
    ++ (List.intercalate [between] (t.rows.map (rowLines ws))) ++ [edge]

/-- The text of a table. -/
def print (t : Table) : Text :=
  List.intercalate ['\n'] t.lines

end Table

end Tagline
