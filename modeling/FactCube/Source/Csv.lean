/-!
# Delimited records

Bytes are split into records and cells before anything is decoded. A record ends at a line break and
an empty line is no record. A quote opens a quoted cell only at the start of the cell; inside it two
quotes stand for one, and what follows the closing quote is taken as it is. A quote that is never
closed runs to the end.
-/

namespace FactCube.Csv

/-! ## The splitter -/

/-- Where in a record the next byte stands. -/
inductive Place
  /-- Before the first cell of a record. -/
  | recordStart
  /-- Before the first byte of a cell. -/
  | cellStart
  /-- In a cell, outside quotes. -/
  | open
  /-- Inside quotes. -/
  | quoted
  /-- After a quote inside quotes. -/
  | afterQuote
deriving DecidableEq, Repr

/-- A splitter at work: the records, cells and bytes read so far, each the last first. -/
structure Splitter where
  place : Place
  records : List (List (List UInt8))
  cells : List (List UInt8)
  cell : List UInt8

namespace Splitter

/-- The splitter before the first byte. -/
def start : Splitter := ⟨.recordStart, [], [], []⟩

/-- The byte joins the cell. -/
def push (s : Splitter) (place : Place) (b : UInt8) : Splitter :=
  { s with place := place, cell := b :: s.cell }

/-- The cell is complete. -/
def endCell (s : Splitter) : Splitter :=
  { s with place := .cellStart, cells := s.cell.reverse :: s.cells, cell := [] }

/-- The cell and the record are complete. -/
def endRecord (s : Splitter) : Splitter :=
  ⟨.recordStart, (s.cell.reverse :: s.cells).reverse :: s.records, [], []⟩

/-- A byte outside quotes: the delimiter, a line break or part of the cell. -/
def outside (delimiter : UInt8) (s : Splitter) (b : UInt8) : Splitter :=
  if b == delimiter then s.endCell
  else if b == 10 || b == 13 then s.endRecord
  else s.push .open b

/-- A byte at the start of a cell, where a quote opens it. -/
def atCellStart (delimiter : UInt8) (s : Splitter) (b : UInt8) : Splitter :=
  if b == 34 then { s with place := .quoted } else s.outside delimiter b

/-- One byte more. -/
def step (delimiter : UInt8) (s : Splitter) (b : UInt8) : Splitter :=
  match s.place with
  | .recordStart => if b == 10 || b == 13 then s else s.atCellStart delimiter b
  | .cellStart => s.atCellStart delimiter b
  | .open => s.outside delimiter b
  | .quoted => if b == 34 then { s with place := .afterQuote } else s.push .quoted b
  | .afterQuote => if b == 34 then s.push .quoted b else s.outside delimiter b

/-- The records once there are no more bytes. -/
def finish (s : Splitter) : List (List (List UInt8)) :=
  match s.place with
  | .recordStart => s.records.reverse
  | _ => s.endRecord.records.reverse

end Splitter

/-! ## Records -/

/-- The bytes without a UTF-8 byte order mark at their start. -/
def withoutMark : List UInt8 → List UInt8
  | 0xEF :: 0xBB :: 0xBF :: rest => rest
  | bytes => bytes

/-- The records of a file, each a list of cells. -/
def records (delimiter : UInt8) (bytes : List UInt8) : List (List (List UInt8)) :=
  ((withoutMark bytes).foldl (Splitter.step delimiter) Splitter.start).finish

end FactCube.Csv
