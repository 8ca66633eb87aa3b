import CommandLog.Text.Width

/-!
# Text in a grid

Rows of cells under a heading, drawn with box characters: a solid frame, dashed lines between
rows, dotted lines between columns, and a double line below the heading. A column is as wide as
its widest cell, with a blank on either side.

`CommandLog.Text.Grid.render` draws the whole grid.
-/

namespace CommandLog.Text.Grid

/-- The characters of one horizontal line: its left end, its filling, its crossings and its right
end. -/
structure Rule where
  /-- The left end. -/
  left : String
  /-- The line itself. -/
  fill : String
  /-- Where it meets a line between two columns. -/
  cross : String
  /-- The right end. -/
  right : String

/-- The upper edge. -/
def top : Rule := ⟨"┌", "─", "┬", "┐"⟩

/-- The line below the heading. -/
def underHeading : Rule := ⟨"╞", "═", "╪", "╡"⟩

/-- The line between two rows. -/
def between : Rule := ⟨"├", "╌", "┼", "┤"⟩

/-- The lower edge. -/
def bottom : Rule := ⟨"└", "─", "┴", "┘"⟩

/-- A horizontal line across columns of the given widths. -/
def drawRule (r : Rule) (widths : List Nat) : String :=
  r.left ++
    String.intercalate r.cross
      (widths.map fun w => String.join (List.replicate (w + 2) r.fill)) ++
    r.right

/-- A cell filled up to the width of its column. -/
def drawCell (w : Nat) (cell : String) : String :=
  " " ++ cell ++ String.ofList (List.replicate (w - width cell.toList) ' ') ++ " "

/-- A row of cells. -/
def drawRow (widths : List Nat) (cells : List String) : String :=
  "│" ++ String.intercalate "┆" ((widths.zip cells).map fun (w, c) => drawCell w c) ++ "│"

/-- The widths of all columns. -/
def columnWidths (rows : List (List String)) : List Nat :=
  rows.foldl (fun ws row => List.zipWith max ws (row.map fun c => width c.toList))
    ((rows.headD []).map fun _ => 0)

/-- **A grid**, one line after the other. -/
def render (heading : List String) (rows : List (List String)) : List String :=
  let ws := columnWidths (heading :: rows)
  let body := (rows.map (drawRow ws)).intersperse (drawRule between ws)
  [drawRule top ws, drawRow ws heading, drawRule underHeading ws] ++ body ++
    [drawRule bottom ws]

end CommandLog.Text.Grid
