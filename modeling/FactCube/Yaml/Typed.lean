import FactCube.Decimal.Numeral
import FactCube.Model.Shape
import FactCube.Yaml.Node

/-!
# YAML of a shape

A plain scalar can mean nothing, a boolean, an integer, a float or a text; a quoted one is always a
text. Where a text is wanted any scalar gives its text as written. Where a mapping or a sequence is
wanted, a value that is not written stands for an empty one, while a word for nothing does not.
-/

namespace FactCube.Yaml

/-! ## Plain scalars -/

/-- Whether a plain scalar means nothing. -/
def meansNothing (s : String) : Bool := ["", "null", "Null", "NULL", "~"].contains s

/-- The boolean a plain scalar means. -/
def boolean? (s : String) : Option Bool :=
  if ["true", "True", "TRUE"].contains s then some true
  else if ["false", "False", "FALSE"].contains s then some false
  else none

/-- The value of a digit in bases up to sixteen. -/
def digit? (base : Nat) (c : Char) : Option Nat :=
  let value :=
    if '0' ≤ c ∧ c ≤ '9' then some (c.toNat - 48)
    else if 'a' ≤ c ∧ c ≤ 'f' then some (c.toNat - 87)
    else if 'A' ≤ c ∧ c ≤ 'F' then some (c.toNat - 55)
    else none
  value.filter fun d => d < base

/-- The number of some digits in a base, at least one. -/
def inBase? (base : Nat) (s : List Char) : Option Nat :=
  if s.isEmpty then none
  else (s.mapM (digit? base)).map fun digits => digits.foldl (fun n d => n * base + d) 0

/-- Whether a text consists of digits but is no number, since it starts with a zero. -/
def isZeroLed (s : List Char) : Bool :=
  let digits := (Decimal.spanSign s).2
  match digits with
  | '0' :: _ :: _ => digits.all Decimal.isDigit
  | _ => false

/-- The integer that a plain scalar means, of any size: digits, or digits after the mark of another
base; a plus sign is allowed in front. -/
def integer? (s : List Char) : Option Int :=
  let (negative, body) := Decimal.spanSign s
  let natural := match body with
    | '0' :: 'x' :: digits => inBase? 16 digits
    | '0' :: 'o' :: digits => inBase? 8 digits
    | '0' :: 'b' :: digits => inBase? 2 digits
    | digits => if isZeroLed s then none else inBase? 10 digits
  natural.map fun (n : Nat) => if negative then -(n : Int) else n

/-- The float that a plain scalar means. -/
def float? (s : List Char) : Option Float :=
  let (negative, body) := Decimal.spanSign s
  let word := String.ofList body
  if [".inf", ".Inf", ".INF"].contains word then
    some (Binary64.make negative Binary64.infinite)
  else if [".nan", ".NaN", ".NAN"].contains (String.ofList s) then some (0.0 / 0.0)
  else (Decimal.number? s).filter Binary64.isFinite

/-- The bounds of the integers that a reader takes as such at all: 128 bits. -/
def greatestWide : Int := 340282366920938463463374607431768211455

/-- The least integer that a reader takes as such at all. -/
def leastWide : Int := -170141183460469231731687303715884105728

/-- The literal a plain scalar means, if it means a scalar that fits one. Integers beyond 64 bits
but within 128 do not fit; wider ones are floats, and so are those beyond the signed range. -/
def plainLiteral? (s : String) : Option Literal :=
  if meansNothing s then none
  else
    match boolean? s with
    | some b => some (.boolean b)
    | none =>
      let floatOrText : Literal :=
        if isZeroLed s.toList then .text s
        else match float? s.toList with
          | some x => .float x
          | none => .text s
      match integer? s.toList with
      | some n =>
        if Decimal.leastInteger ≤ n ∧ n ≤ Decimal.greatestInteger then some (.integer n)
        else if 0 ≤ n ∧ n ≤ Decimal.greatest64 then some (.float (Binary64.ofInt n))
        else if leastWide ≤ n ∧ n ≤ greatestWide then none
        else some floatOrText
      | none => some floatOrText

/-! ## Nodes -/

/-- The text of a scalar. -/
def text? : Node → Option String
  | .scalar text _ => some text
  | _ => none

/-- Whether a node means nothing. -/
def isNothing : Node → Bool
  | .scalar text plain => plain && meansNothing text
  | _ => false

/-- Whether a scalar is a value that is not written. -/
def isUnwritten (text : String) (plain : Bool) : Bool := plain && text.isEmpty

/-- The literal of a scalar. -/
def literal? : Node → Option Literal
  | .scalar text true => plainLiteral? text
  | .scalar text false => some (.text text)
  | _ => none

/-- The flag of a scalar. -/
def flag? : Node → Option Bool
  | .scalar text true => boolean? text
  | _ => none

/-! ## Shapes -/

/-- The data of a record, if all required fields are written. -/
def closeRecord (fields : List (String × Presence × Shape)) (written : List (String × Datum)) :
    Option Datum :=
  if hasRequired fields written then some (.record written) else none

mutual

/-- The data of a node that has to have a shape. -/
def datum? : Shape → Node → Option Datum
  | .text, .scalar text _ => some (.text text)
  | .flag, .scalar text plain => (flag? (.scalar text plain)).map .flag
  | .literal, .scalar text plain => (literal? (.scalar text plain)).map .literal
  | .record fields, .mapping entries => (readFields fields [] entries).bind (closeRecord fields)
  | .record fields, .scalar text plain =>
    if isUnwritten text plain then closeRecord fields [] else none
  | .keyed entry, .mapping entries => (readEntries entry entries).map .keyed
  | .keyed _, .scalar text plain =>
    if isUnwritten text plain then some (.keyed []) else none
  | .listed item, .sequence items => (readItems item items).map .listed
  | .listed _, .scalar text plain =>
    if isUnwritten text plain then some (.listed []) else none
  | _, _ => none

/-- The fields of a record after those already written. -/
def readFields (fields : List (String × Presence × Shape)) (written : List (String × Datum)) :
    List (Node × Node) → Option (List (String × Datum))
  | [] => some written
  | (key, value) :: entries =>
    (text? key).bind fun name =>
      match findField fields name with
      | none => readFields fields written entries
      | some (presence, shape) =>
        if written.any fun w => w.1 == name then none
        else if presence == .optional && isNothing value then
          readFields fields (written ++ [(name, .absent)]) entries
        else
          (datum? shape value).bind fun d =>
            readFields fields (written ++ [(name, d)]) entries

/-- The entries of a keyed table. -/
def readEntries (entry : Shape) : List (Node × Node) → Option (List (String × Datum))
  | [] => some []
  | (key, value) :: entries =>
    (text? key).bind fun name =>
      (datum? entry value).bind fun d =>
        (readEntries entry entries).map fun rest => (name, d) :: rest

/-- The items of a list. -/
def readItems (item : Shape) : List Node → Option (List Datum)
  | [] => some []
  | node :: items =>
    (datum? item node).bind fun d => (readItems item items).map fun rest => d :: rest

end

/-- The data in a text that has to be one document of a shape. -/
def readShape (shape : Shape) (text : String) : Option Datum :=
  (Node.ofText? text).bind (datum? shape)

end FactCube.Yaml
