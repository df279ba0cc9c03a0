import CodeIndex.Text.Columns

/-!
# Tables

A table on a terminal: a frame of lines with a heavy head, and each cell padded to the width of its
column.
-/

namespace CodeIndex.CommandLine

structure Column where
  title : String
  /-- Whether cells stand at the right. -/
  isRight : Bool := false

/-- A table; each row has a cell for each column. -/
structure Table where
  columns : List Column
  rows : List (List String)

namespace Table

/-- The characters of a line of the frame: its ends, what fills it, and where columns meet. -/
structure Rule where
  left : String
  fill : Char
  joint : String
  right : String

def topRule : Rule := { left := "┏", fill := '━', joint := "┳", right := "┓" }

def headRule : Rule := { left := "┡", fill := '━', joint := "╇", right := "┩" }

def bottomRule : Rule := { left := "└", fill := '─', joint := "┴", right := "┘" }

/-- The width of each column: that of its widest cell. -/
def widths (t : Table) : List Nat :=
  t.columns.zipIdx.map fun (column, i) =>
    (t.rows.map fun row => Text.columns (row[i]?.getD "")).foldl max (Text.columns column.title)

def ruleLine (widths : List Nat) (rule : Rule) : String :=
  let piece := fun width => String.ofList (List.replicate (width + 2) rule.fill)
  rule.left ++ rule.joint.intercalate (widths.map piece) ++ rule.right

def cell (column : Column) (width : Nat) (s : String) : String :=
  " " ++ (if column.isRight then Text.padStart width s else Text.padEnd width s) ++ " "

def cellLine (bar : String) (columns : List (Column × Nat)) (cells : List String) : String :=
  bar ++ bar.intercalate ((columns.zip cells).map fun ((column, width), s) => cell column width s)
    ++ bar

def lines (t : Table) : List String :=
  let widths := t.widths
  let columns := t.columns.zip widths
  [ruleLine widths topRule, cellLine "┃" columns (t.columns.map Column.title),
    ruleLine widths headRule]
    ++ t.rows.map (cellLine "│" columns) ++ [ruleLine widths bottomRule]

end Table

end CodeIndex.CommandLine
