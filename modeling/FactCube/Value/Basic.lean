import FactCube.Calendar.Period
import FactCube.Value.DataType

/-!
# Values

A value is the typed content of a cell. Values of different types can be compared: an integer and a
float by size, all others by the rank of their type. Two values are equal when they compare as
equal.

`Value.groupOrder` is a second, simpler order that never compares across types; it keys the groups
of an aggregation, where one column holds values of one type and the two orders say the same.
-/

namespace FactCube

/-- The typed content of a cell. -/
inductive Value
  | string (text : String)
  | integer (number : Int)
  | float (number : Float)
  | boolean (truth : Bool)
  | date (period : Period)
deriving DecidableEq

namespace Value

/-! ## Views -/

/-- The type of a value. -/
def dataType : Value → DataType
  | .string _ => .string
  | .integer _ => .integer
  | .float _ => .float
  | .boolean _ => .boolean
  | .date _ => .date

/-- The text of a value. -/
def display : Value → String
  | .string s => s
  | .integer n => Decimal.integerText n
  | .float x => Decimal.plain x
  | .boolean b => if b then "true" else "false"
  | .date p => p.text

/-- The text of a string value. -/
def string? : Value → Option String
  | .string s => some s
  | _ => none

/-- The number that is summed for a numeric value. -/
def number? : Value → Option Float
  | .integer n => some (Binary64.ofInt n)
  | .float x => some x
  | _ => none

/-- The empty text stands for an attribute that a row does not fill. -/
def isBlank : Value → Bool
  | .string s => s.isEmpty
  | _ => false

/-! ## Order -/

/-- The rank of a value's type. -/
def rank : Value → Nat
  | .string _ => 0
  | .integer _ => 1
  | .float _ => 2
  | .boolean _ => 3
  | .date _ => 4

/-- The order of numbers, the two zeros alike. -/
def compareFloats (x y : Float) : Ordering :=
  Ord.compare (Binary64.place (Binary64.unsignedZero x)) (Binary64.place (Binary64.unsignedZero y))

/-- The order of values: texts by code points, numbers by size across integers and floats, `false`
before `true`, periods by time, and values of other types by the rank of their type. -/
def compare : Value → Value → Ordering
  | .string a, .string b => Ord.compare a b
  | .integer a, .integer b => Ord.compare a b
  | .float a, .float b => compareFloats a b
  | .integer a, .float b => compareFloats (Binary64.ofInt a) b
  | .float a, .integer b => compareFloats a (Binary64.ofInt b)
  | .boolean a, .boolean b => Ord.compare a b
  | .date a, .date b => a.compare b
  | a, b => Ord.compare a.rank b.rank

/-- Whether two values compare as equal. -/
def same (a b : Value) : Bool := a.compare b == .eq

/-- The order of values of one column: by rank of the type, then within the type. -/
def groupOrder : Value → Value → Ordering
  | .string a, .string b => Ord.compare a b
  | .integer a, .integer b => Ord.compare a b
  | .float a, .float b => compareFloats a b
  | .boolean a, .boolean b => Ord.compare a b
  | .date a, .date b => a.compare b
  | a, b => Ord.compare a.rank b.rank

end Value

end FactCube
