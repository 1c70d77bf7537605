import Std.Data.HashMap

/-!
# Source rows

A source row is one line of input: a text for each of its columns. A row may lack columns.
-/

namespace FactCube

/-- The texts of a row by column. -/
structure Row where
  cells : Std.HashMap String String

namespace Row

/-- The row without columns. -/
def empty : Row := ⟨∅⟩

/-- The text in a column. -/
def get? (row : Row) (column : String) : Option String := row.cells[column]?

/-- The row with a text put into a column. -/
def insert (row : Row) (column text : String) : Row := ⟨row.cells.insert column text⟩

/-- The count of columns. -/
def size (row : Row) : Nat := row.cells.size

/-- The row of some columns and texts; of equal columns the last counts. -/
def ofList (cells : List (String × String)) : Row :=
  cells.foldl (fun row (column, text) => row.insert column text) empty

/-- The row of a record: headers and cells by position. Surplus cells are dropped and a short record
lacks the last columns. -/
def ofRecord (headers cells : List String) : Row := ofList (headers.zip cells)

/-- The columns and texts of a row, in no particular order. -/
def toList (row : Row) : List (String × String) := row.cells.toList

end Row

end FactCube
