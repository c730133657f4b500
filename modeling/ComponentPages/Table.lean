import ComponentPages.OrderedMap

/-!
# Tables

Tables in pipe notation with aligned columns.

- **`TableRow`** — the cells of a row under the names of their columns.
- **`cellText`** — a text as it is written in a cell: on one line and without a bare pipe.
- **`columns`**, **`columnWidth`** — the columns of a table and how wide they are.
- **`renderTable`** — the table.
-/

namespace ComponentPages

/-- The cells of a row under the names of their columns, in the order of insertion. -/
abbrev TableRow := OrderedMap Text

/-! ## Cells -/

/-- A text in a cell, given whether a backslash stands before it. -/
def cellTextFrom (afterBackslash : Bool) : Text → Text
  | [] => []
  | c :: rest =>
    let written :=
      -- a line break must not end the row
      if c = '\r' then []
      else if c = '\n' then [' ']
      else if c = '|' ∧ !afterBackslash then ['\\', '|']
      else [c]
    written ++ cellTextFrom (c == '\\') rest

/-- A text as it is written in a cell: line feeds are spaces, carriage returns are left out and a
pipe has a backslash before it. -/
def cellText (s : Text) : Text := cellTextFrom false s

/-! ## Columns -/

/-- The cells of a row as they are written, with the written names of their columns. -/
def writtenCells (row : TableRow) : List (Text × Text) :=
  row.entries.map fun (column, cell) => (cellText column, cellText cell)

/-- The columns of a table in the order in which they first come up. -/
def columns (rows : List TableRow) : List Text :=
  ((rows.flatMap writtenCells).map Prod.fst).eraseDups

/-- The width of a column: that of its name or of its widest cell. -/
def columnWidth (rows : List TableRow) (column : Text) : Nat :=
  (((rows.flatMap writtenCells).filter fun (c, _) => c = column).map fun (_, cell) =>
    cell.length).foldl max column.length

/-- The cell of a row in a column, empty if there is none. -/
def cellIn (row : TableRow) (column : Text) : Text :=
  (((writtenCells row).find? fun (c, _) => c = column).map Prod.snd).getD []

/-! ## Lines -/

/-- A text with blanks at its end up to a width. -/
def padTo (width : Nat) (s : Text) : Text := s ++ List.replicate (width - s.length) ' '

/-- A line of a table: each cell between a space and a pipe, padded to one more than its width. -/
def tableLine (cells : List (Text × Nat)) : Text :=
  '|' :: cells.flatMap fun (cell, width) => ' ' :: padTo (width + 1) cell ++ ['|']

/-- The line between the names of the columns and the rows. -/
def dividerCell (width : Nat) : Text := List.replicate width '-'

/-- The lines of a table with some columns. -/
def tableLines (rows : List TableRow) (columns : List Text) : List Text :=
  let widths := columns.map (columnWidth rows)
  tableLine (columns.zip widths) ::
    tableLine (widths.map fun w => (dividerCell w, w)) ::
    rows.map fun row => tableLine ((columns.map (cellIn row)).zip widths)

/-- The table of some rows, each line with a line end; nothing where there are no cells. -/
def renderTable (rows : List TableRow) : Text :=
  match columns rows with
  | [] => []
  | columns => (tableLines rows columns).flatMap fun line => line ++ ['\n']

end ComponentPages
