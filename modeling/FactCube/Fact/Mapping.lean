import FactCube.Fact.Record
import FactCube.Fact.Row
import FactCube.Value.Reader

/-!
# Mapping rows to facts

Each slot takes the text of its column. An empty or missing text gives way to the default; without
one, a string attribute of a compound dimension stays blank and any other slot makes the row
unusable. Slots are visited in the order of the dimensions and the first fault counts.
-/

namespace FactCube

/-! ## Faults -/

/-- Why a row cannot become a fact. -/
inductive RowFault
  /-- The column is missing or empty, and there is no default. -/
  | noValue (path column : String)
  /-- The text of the column has no value of the datatype. -/
  | notCoercible (path : String) (datatype : DataType) (cause : ValueFault)
deriving DecidableEq

namespace RowFault

/-- The wording of a fault. -/
def message : RowFault → String
  | .noValue path column =>
    s!"no value for '{path}': column '{column}' is missing or empty and no default is declared"
  | .notCoercible path datatype cause =>
    s!"cannot coerce '{path}' to " ++ datatype.name ++ ": " ++ cause.message

/-- The faults behind a fault, in their wording. -/
def causes : RowFault → List String
  | .noValue _ _ => []
  | .notCoercible _ _ cause => [cause.message]

end RowFault

/-! ## Slots -/

/-- The text of a column, if it is not empty. -/
def cellText? (row : Row) (column : String) : Option String :=
  match row.get? column with
  | some text => if text.isEmpty then none else some text
  | none => none

/-- The value of a slot. -/
def slotValue (row : Row) (field : MappedField) : Except RowFault Value :=
  match cellText? row field.column with
  | some text =>
    match Value.ofText field.datatype text with
    | .ok value => .ok value
    | .error cause => .error (.notCoercible field.path field.datatype cause)
  | none =>
    match field.default? with
    | some value => .ok value
    | none =>
      if field.optional then .ok (.string "") else .error (.noValue field.path field.column)

/-! ## Records -/

/-- The contents before any slot is filled. -/
def emptyContents (schema : Schema) : Contents :=
  schema.dimensions.map fun d => if d.isCompound then .compound [] else .scalar (.string "")

/-- Puts a value into an entry: in place of a scalar, at the end of a compound one. -/
def Entry.fill (value : Value) : Entry → Entry
  | .scalar _ => .scalar value
  | .compound values => .compound (values ++ [value])

/-- Fills the slots one after the other. -/
def fillSlots (row : Row) : Contents → List MappedField → Except RowFault Contents
  | contents, [] => .ok contents
  | contents, field :: fields =>
    match slotValue row field with
    | .ok value => fillSlots row (contents.modify field.target.dimension (Entry.fill value)) fields
    | .error fault => .error fault

/-- The fact of a row. -/
def mapRow (schema : Schema) (row : Row) : Except RowFault Record :=
  (fillSlots row (emptyContents schema) schema.fields).map (Record.ofContents schema)

end FactCube
