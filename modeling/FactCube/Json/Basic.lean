import FactCube.Decimal.Layout
import FactCube.Text.Quoted

/-!
# JSON values and their text

The values that are written as JSON, and their two texts: on one line without blanks, and spread
over lines with two blanks for each level. Members keep the order they are given in; `Json.sorted`
puts them in the order of their names, the last of equal names replacing the others.
-/

namespace FactCube

/-- A JSON value. -/
inductive Json
  | null
  | boolean (truth : Bool)
  | integer (number : Int)
  | float (number : Float)
  | string (text : String)
  | array (items : List Json)
  | object (members : List (String × Json))

namespace Json

/-! ## Scalars -/

/-- The four digits of a character number below `0x10000`. -/
def hex4 (n : Nat) : List Char :=
  let digits := Text.hexDigits n
  Decimal.zeros (4 - digits.length) ++ digits

/-- A character inside a string: quotes, backslashes and controls are escaped, nothing else. -/
def escape (c : Char) : List Char :=
  if c == '"' || c == '\\' then ['\\', c]
  else if c == '\x08' then ['\\', 'b']
  else if c == '\x0c' then ['\\', 'f']
  else if c == '\n' then ['\\', 'n']
  else if c == '\r' then ['\\', 'r']
  else if c == '\t' then ['\\', 't']
  else if c.toNat < 0x20 then '\\' :: 'u' :: hex4 c.toNat
  else [c]

/-- A string between quotes. -/
def stringText (s : String) : List Char := '"' :: s.toList.flatMap escape ++ ['"']

/-- A number; what is not finite has no text of its own. -/
def floatText (x : Float) : List Char :=
  if Binary64.isFinite x then (Decimal.exact x).toList else "null".toList

/-! ## One line -/

mutual

/-- The text of a value on one line. -/
def compactText : Json → List Char
  | .null => "null".toList
  | .boolean b => if b then "true".toList else "false".toList
  | .integer n => (Decimal.integerText n).toList
  | .float x => floatText x
  | .string s => stringText s
  | .array items => '[' :: compactItems items ++ [']']
  | .object members => '{' :: compactMembers members ++ ['}']

/-- The items of an array with commas between them. -/
def compactItems : List Json → List Char
  | [] => []
  | [item] => compactText item
  | item :: items => compactText item ++ ',' :: compactItems items

/-- The members of an object with commas between them. -/
def compactMembers : List (String × Json) → List Char
  | [] => []
  | [(name, value)] => stringText name ++ ':' :: compactText value
  | (name, value) :: members =>
    stringText name ++ ':' :: compactText value ++ ',' :: compactMembers members

end

/-- The text of a value on one line, without blanks. -/
def compact (j : Json) : String := String.ofList j.compactText

/-! ## Many lines -/

/-- A line break and two blanks for each level. -/
def newLine (level : Nat) : List Char := '\n' :: List.replicate (2 * level) ' '

mutual

/-- The text of a value over many lines, where its own line is at `level`. -/
def prettyText (level : Nat) : Json → List Char
  | .array [] => ['[', ']']
  | .array (item :: items) =>
    '[' :: newLine (level + 1) ++ prettyText (level + 1) item ++ prettyItems (level + 1) items ++
      newLine level ++ [']']
  | .object [] => ['{', '}']
  | .object ((name, value) :: members) =>
    '{' :: newLine (level + 1) ++ stringText name ++ ':' :: ' ' :: prettyText (level + 1) value ++
      prettyMembers (level + 1) members ++ newLine level ++ ['}']
  | .null => "null".toList
  | .boolean b => if b then "true".toList else "false".toList
  | .integer n => (Decimal.integerText n).toList
  | .float x => floatText x
  | .string s => stringText s

/-- The items after the first, each after a comma on a line of its own. -/
def prettyItems (level : Nat) : List Json → List Char
  | [] => []
  | item :: items => ',' :: newLine level ++ prettyText level item ++ prettyItems level items

/-- The members after the first, each after a comma on a line of its own. -/
def prettyMembers (level : Nat) : List (String × Json) → List Char
  | [] => []
  | (name, value) :: members =>
    ',' :: newLine level ++ stringText name ++ ':' :: ' ' :: prettyText level value ++
      prettyMembers level members

end

/-- The text of a value over many lines. -/
def pretty (j : Json) : String := String.ofList (j.prettyText 0)

/-! ## Sorted members -/

/-- Puts a member into a list sorted by name; a member of the same name is replaced. -/
def insertSorted (name : String) (value : Json) : List (String × Json) → List (String × Json)
  | [] => [(name, value)]
  | (other, old) :: members =>
    match Ord.compare name other with
    | .lt => (name, value) :: (other, old) :: members
    | .eq => (name, value) :: members
    | .gt => (other, old) :: insertSorted name value members

/-- The members sorted by name, the last of equal names only. -/
def sortMembers (members : List (String × Json)) : List (String × Json) :=
  members.foldl (fun sorted (name, value) => insertSorted name value sorted) []

/-- The object of some members, sorted by name. -/
def sorted (members : List (String × Json)) : Json := .object (sortMembers members)

/-- The value of the first member of a name. -/
def member? (name : String) : Json → Option Json
  | .object members => (members.find? fun m => m.1 == name).map Prod.snd
  | _ => none

end Json

end FactCube
