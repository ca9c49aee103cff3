import HeapStore.Text.Split
import HeapStore.Text.Width

/-!
# Tables in boxes

A table of texts is drawn with a frame of lines around its cells. Each column is as wide as its widest
cell. A double line divides the titles from the rows.

* `Cell.ofText`: a cell, whose text may have several lines.
* `draw`: the drawn table.
-/

namespace HeapStore.Text.Box

/-- On which side of its cell a text stands. -/
inductive Side where
  | left
  | right

structure Cell where
  lines : List (List Char)
  side : Side := .left

namespace Cell

def ofText (text : String) (side : Side) : Cell := ⟨Text.lines text.toList, side⟩

/-- Some line cannot be measured, so the cell has no width. -/
def isUnmeasured (c : Cell) : Bool := c.lines.any Text.isUnmeasured

/-- The columns of the widest line. -/
def width (c : Cell) : Nat := (c.lines.map shownWidth).foldl max 0

/-- A line of a cell, filled up to a width. -/
def line (c : Cell) (columns number : Nat) : List Char :=
  let text := c.lines.getD number []
  let fill := List.replicate (columns - shownWidth text) ' '
  match c.side with
  | .left => text ++ fill
  | .right => fill ++ text

end Cell

/-- The width of each column. All rows have as many cells as there are titles. -/
def columnWidths (titles : List Cell) (rows : List (List Cell)) : List Nat :=
  rows.foldl (fun widths row => List.zipWith max widths (row.map Cell.width))
    (titles.map Cell.width)

/-- A line between rows. -/
def rule (mark : Char) (widths : List Nat) : List Char :=
  '+' :: widths.flatMap (fun n => List.replicate (n + 2) mark ++ ['+']) ++ ['\n']

/-- A line of the cells of a row. -/
def rowLine (widths : List Nat) (row : List Cell) (number : Nat) : List Char :=
  '|' :: (List.zip widths row).flatMap (fun (n, c) => ' ' :: c.line n number ++ [' ', '|']) ++ ['\n']

/-- The number of lines of a row, at least one. -/
def height (row : List Cell) : Nat := (row.map fun c => c.lines.length).foldl max 1

/-- The lines of a row. -/
def drawRow (widths : List Nat) (row : List Cell) : List Char :=
  (List.range (height row)).flatMap (rowLine widths row)

/-- The drawn table. -/
def draw (titles : List Cell) (rows : List (List Cell)) : String :=
  let widths := columnWidths titles rows
  String.ofList <|
    rule '-' widths ++ drawRow widths titles ++ rule '=' widths ++
      (rule '-' widths).intercalate (rows.map (drawRow widths)) ++ rule '-' widths

end HeapStore.Text.Box
