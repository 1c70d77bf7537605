import FactCube.Bytes.Encoding
import FactCube.Fact.Row
import FactCube.Source.Csv
import FactCube.Source.Delimiter
import FactCube.Text.Quoted

/-!
# Rows of a file

The first record of a file holds the headers and every other record is a row. Cells are decoded one
by one, so that a byte order mark counts at the start of any of them. The first record that cannot
be decoded makes the file unreadable.
-/

namespace FactCube

/-! ## Faults -/

/-- Why a file of rows cannot be read. -/
inductive SourceFault
  /-- A header is malformed in the encoding. -/
  | headers (encoding : Encoding)
  /-- A cell of the row with this number, counted from 1, is malformed in the encoding. -/
  | row (number : Nat) (encoding : Encoding)

/-- The wording of a fault of the file at `path`, from the outermost part to the cause. -/
def SourceFault.parts (path : String) : SourceFault → List String
  | .headers encoding => ["Reading headers from " ++ Text.quoted path, encoding.malformedMessage]
  | .row number encoding =>
    [s!"Decoding row {number} of " ++ Text.quoted path, encoding.malformedMessage]

/-! ## Reading -/

/-- The headers and the rows of a file. -/
structure Sheet where
  headers : List String
  rows : List Row

/-- The texts of a record. -/
def decodeRecord (encoding : Encoding) (record : List (List UInt8)) : Option (List String) :=
  record.mapM encoding.decode

/-- The rows of some records, the first of them numbered `number`, after the rows already read,
which are given in reverse. -/
def rowsOnto (encoding : Encoding) (headers : List String) :
    List Row → Nat → List (List (List UInt8)) → Except SourceFault (List Row)
  | read, _, [] => .ok read.reverse
  | read, number, record :: records =>
    match decodeRecord encoding record with
    | none => .error (.row number encoding)
    | some cells =>
      rowsOnto encoding headers (Row.ofRecord headers cells :: read) (number + 1) records

/-- The sheet in a file. -/
def Sheet.ofBytes (delimiter : UInt8) (encoding : Encoding) (bytes : List UInt8) :
    Except SourceFault Sheet :=
  match Csv.records delimiter bytes with
  | [] => .ok ⟨[], []⟩
  | first :: records =>
    match decodeRecord encoding first with
    | none => .error (.headers encoding)
    | some headers => (rowsOnto encoding headers [] 1 records).map fun rows => ⟨headers, rows⟩

end FactCube
