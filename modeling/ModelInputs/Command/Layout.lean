import ModelInputs.Command.Report

/-!
# Tables as lines

* `Table.lines`: the title, the column names and the rows, with columns of equal width.
-/

namespace ModelInputs

namespace Table

/-- The width of each column. -/
def widths (t : Table) : List Nat :=
  (t.columns :: t.rows).foldl
    (fun ws row => List.zipWith max ws (row.map String.length))
    (t.columns.map String.length)

/-- A cell, filled with blanks up to a width. -/
def padded (width : Nat) (cell : String) : String :=
  cell ++ String.ofList (List.replicate (width - cell.length) ' ')

/-- The cells of a row, filled up to the widths of the columns. -/
def rowLine (ws : List Nat) (row : List String) : String :=
  "  ".intercalate (List.zipWith padded ws row)

/-- The lines of a table. -/
def lines (t : Table) : List String :=
  t.title :: (t.columns :: t.rows).map (rowLine t.widths)

end Table

/-- What is shown to the user, as lines. -/
def Printed.lines : Printed → List String
  | text s => [s]
  | table t => t.lines

end ModelInputs
