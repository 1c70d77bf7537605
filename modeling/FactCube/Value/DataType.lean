import FactCube.Text.Split

/-!
# Datatypes

The five datatypes a column can have, their names and the other spellings under which a model may
name them.
-/

namespace FactCube

/-- The datatype of a scalar dimension or of an attribute. -/
inductive DataType
  | string
  | integer
  | float
  | boolean
  | date
deriving DecidableEq, Repr

namespace DataType

/-- The datatypes in the order in which they are listed to users. -/
def all : List DataType := [.string, .integer, .float, .boolean, .date]

/-- The name of a datatype. -/
def name : DataType → String
  | .string => "string"
  | .integer => "integer"
  | .float => "float"
  | .boolean => "boolean"
  | .date => "date"

/-- Whether values of the type can be summed. -/
def isNumeric : DataType → Bool
  | .integer | .float => true
  | _ => false

/-- The datatype a model names, blanks at the ends and letter case aside. -/
def ofText? (s : String) : Option DataType :=
  let word := Text.lowered (Text.trimmed s)
  if word == "string" || word == "text" then some .string
  else if word == "integer" || word == "int" then some .integer
  else if word == "float" || word == "double" then some .float
  else if word == "boolean" || word == "bool" then some .boolean
  else if word == "date" then some .date
  else none

/-- What is said of a text that names no datatype. -/
def unknownMessage (s : String) : String :=
  s!"Unknown datatype '{s}'. Supported types: " ++ Text.joined ", " (all.map name)

end DataType

end FactCube
