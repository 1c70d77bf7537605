import FactCube.Text.Split

/-!
# Text tables

A table has a header line, a line of dashes and a line for each row. Every column is as wide as its
widest header or cell, two blanks stand between columns, and blanks at the end of a line are cut.
Cells beyond the last header are not shown. A line break or a tab inside a cell is shown as a blank.
-/

namespace FactCube.Table

/-! ## Cells -/

/-- The cell as it is shown: on one line. -/
def flatten (cell : String) : List Char :=
  cell.toList.map fun c => if c == '\n' || c == '\r' || c == '\t' then ' ' else c

/-- The cell with blanks after it up to a width. -/
def pad (width : Nat) (cell : List Char) : List Char :=
  cell ++ List.replicate (width - cell.length) ' '

/-! ## Lines -/

/-- Cells with two blanks between neighbours. -/
def spaced : List (List Char) → List Char
  | [] => []
  | [cell] => cell
  | cell :: rest => cell ++ ' ' :: ' ' :: spaced rest

/-- One line of the table, without blanks at its end. -/
def line (widths : List Nat) (cells : List String) : List Char :=
  Text.trimRight (spaced ((cells.zip widths).map fun (cell, width) => pad width (flatten cell)))

/-- The widths after a row was looked at: no column is narrower than its cell. -/
def widen : List Nat → List String → List Nat
  | width :: widths, cell :: cells => Nat.max width (flatten cell).length :: widen widths cells
  | widths, [] => widths
  | [], _ => []

/-- The width of each column: that of its widest header or cell, at least one. -/
def widths (headers : List String) (rows : List (List String)) : List Nat :=
  rows.foldl widen (headers.map fun header => Nat.max header.toList.length 1)

/-- The dashes under the headers, at least three in each column. -/
def rule (widths : List Nat) : List Char :=
  let wide := widths.map (Nat.max · 3)
  line wide (wide.map fun width => String.ofList (List.replicate width '-'))

/-- The lines of a table. -/
def lines (headers : List String) (rows : List (List String)) : List (List Char) :=
  let widths := widths headers rows
  line widths headers :: rule widths :: rows.map (line widths)

/-- The text of a table, each line with its line break. -/
def render (headers : List String) (rows : List (List String)) : String :=
  String.ofList ((lines headers rows).flatMap fun l => l ++ ['\n'])

end FactCube.Table
