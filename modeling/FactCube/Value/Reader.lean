import FactCube.Calendar.Reader
import FactCube.Value.Basic

/-!
# Reading values

`Value.ofText` is the one place where the text of a cell becomes a typed value. Texts of strings are
taken as they are; for all other types blanks at the ends do not count. The message of an error
quotes the text as it was given.
-/

namespace FactCube

/-! ## Faults -/

/-- Why a text has no value of the wanted type; each carries the text. -/
inductive ValueFault
  | notInteger (text : String)
  | notFinite (text : String)
  | notBoolean (text : String)
  | notDate (text : String)
deriving DecidableEq

/-- The wording of a fault. -/
def ValueFault.message : ValueFault → String
  | .notInteger s => s!"'{s}' is not an integer"
  | .notFinite s => s!"'{s}' is not a finite number"
  | .notBoolean s => s!"'{s}' is not a boolean"
  | .notDate s => s!"'{s}' is not a year, year-month or calendar date"

/-! ## One reader per type -/

/-- A 64-bit integer. -/
def readInteger (s : String) : Except ValueFault Int :=
  match Decimal.integer? (Text.trim s.toList) with
  | some n => .ok n
  | none => .error (.notInteger s)

/-- A finite number; negative zero is read as zero. -/
def readFloat (s : String) : Except ValueFault Float :=
  match Decimal.number? (Text.trim s.toList) with
  | some x =>
    if Binary64.isFinite x then .ok (Binary64.unsignedZero x) else .error (.notFinite s)
  | none => .error (.notFinite s)

/-- The words for true and for false, in any letter case. -/
def readBoolean (s : String) : Except ValueFault Bool :=
  let word := Text.lowered (Text.trimmed s)
  if ["true", "t", "yes", "y", "1"].contains word then .ok true
  else if ["false", "f", "no", "n", "0"].contains word then .ok false
  else .error (.notBoolean s)

/-- A year, a month or a day. -/
def readDate (s : String) : Except ValueFault Period :=
  match Period.ofText? s with
  | some p => .ok p
  | none => .error (.notDate s)

/-- The value of the given type that a text stands for. -/
def Value.ofText (type : DataType) (s : String) : Except ValueFault Value :=
  match type with
  | .string => .ok (.string s)
  | .integer => (readInteger s).map .integer
  | .float => (readFloat s).map .float
  | .boolean => (readBoolean s).map .boolean
  | .date => (readDate s).map .date

end FactCube
