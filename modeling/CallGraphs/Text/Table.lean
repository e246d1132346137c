import CallGraphs.Text.Width

/-!
# Tables of text

A table in a frame with rounded corners.  Every cell has a blank on both
sides, columns are as wide as their widest line, and a row is as high as its
highest cell.
-/

namespace CallGraphs

/-- A table: a row of headings over the other rows. -/
structure TextTable where
  headings : List String
  rows : List (List String)
deriving DecidableEq, Inhabited, Repr

namespace TextTable

/-- A text filled up with blanks to a width. -/
def padTo (width : Nat) (text : String) : String :=
  text ++ "".pushn ' ' (width - displayWidth text)

/-- The lines of a cell. -/
def cellLines (cell : String) : List String := cell.splitOn "\n"

/-- The width of the widest line of a cell. -/
def cellWidth (cell : String) : Nat := ((cellLines cell).map displayWidth).foldl max 0

/-- The width of every column. -/
def widths (t : TextTable) : List Nat :=
  t.rows.foldl (fun widths row => List.zipWith max widths (row.map cellWidth))
    (t.headings.map cellWidth)

/-- A line of the frame, with the strokes for its left end, its crossings and its right end. -/
def rule (left crossing right : String) (widths : List Nat) : String :=
  left ++ String.intercalate crossing (widths.map fun w => "".pushn '─' (w + 2)) ++ right

/-- One line of a row, of which some cells have no more text. -/
def rowLine (widths : List Nat) (texts : List String) : String :=
  "│" ++ String.intercalate "│"
    (List.zipWith (fun width text => " " ++ padTo width text ++ " ") widths texts) ++ "│"

/-- The lines of a row. -/
def rowLines (widths : List Nat) (row : List String) : List String :=
  let cells := row.map cellLines
  (List.range ((cells.map List.length).foldl max 0)).map fun i =>
    rowLine widths (cells.map fun lines => lines.getD i "")

/-- The lines of the table. -/
def lines (t : TextTable) : List String :=
  let widths := t.widths
  [rule "╭" "┬" "╮" widths] ++ rowLines widths t.headings ++ [rule "├" "┼" "┤" widths] ++
    t.rows.flatMap (rowLines widths) ++ [rule "╰" "┴" "╯" widths]

end TextTable

end CallGraphs
