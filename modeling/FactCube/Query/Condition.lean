import FactCube.Text.Split

/-!
# Conditions

A condition compares a field with a literal. It is written as the field, an operator and the
literal, and is cut at the first character that starts an operator; of the operators that fit there
the longest is meant. Several conditions that must hold together are written with semicolons between
them.
-/

namespace FactCube

/-! ## Operators -/

/-- How a value is compared with a literal. -/
inductive Operator
  | equal
  | notEqual
  | greater
  | greaterOrEqual
  | less
  | lessOrEqual
deriving DecidableEq, Repr

namespace Operator

/-- The sign an operator is printed with. -/
def symbol : Operator → String
  | .equal => "="
  | .notEqual => "!="
  | .greater => ">"
  | .greaterOrEqual => ">="
  | .less => "<"
  | .lessOrEqual => "<="

/-- Whether a value that compares with the literal like this satisfies the operator. -/
def accepts : Operator → Ordering → Bool
  | .equal, o => o == .eq
  | .notEqual, o => o != .eq
  | .greater, o => o == .gt
  | .greaterOrEqual, o => o != .lt
  | .less, o => o == .lt
  | .lessOrEqual, o => o != .gt

/-- The operator a text starts with, the longest one that fits, and what follows it. -/
def atStart : List Char → Option (Operator × List Char)
  | '!' :: '=' :: rest => some (.notEqual, rest)
  | '>' :: '=' :: rest => some (.greaterOrEqual, rest)
  | '<' :: '=' :: rest => some (.lessOrEqual, rest)
  | '>' :: ':' :: rest => some (.greaterOrEqual, rest)
  | '<' :: ':' :: rest => some (.lessOrEqual, rest)
  | '=' :: rest => some (.equal, rest)
  | ':' :: rest => some (.equal, rest)
  | '!' :: rest => some (.notEqual, rest)
  | '>' :: rest => some (.greater, rest)
  | '<' :: rest => some (.less, rest)
  | _ => none

/-- The operator a text exactly spells. -/
def ofSymbol? (s : String) : Option Operator :=
  [equal, notEqual, greater, greaterOrEqual, less, lessOrEqual].find? fun o => o.symbol == s

end Operator

/-! ## Quotes -/

/-- The text without a pair of equal quotes around it. -/
def unquote (s : List Char) : List Char :=
  match s with
  | quote :: rest =>
    if (quote == '"' || quote == '\x27') && rest.getLast? == some quote then rest.dropLast else s
  | [] => []

/-! ## Conditions -/

/-- A comparison of a field with a literal, both as written. -/
structure Condition where
  field : String
  operator : Operator
  literal : String
deriving DecidableEq

/-- Why a text of the query language is refused; carries the text. -/
structure MalformedText where
  text : String
deriving DecidableEq

/-- Splits a text at the first place where an operator starts. -/
def splitAtOperator : List Char → Option (List Char × Operator × List Char)
  | [] => none
  | c :: rest =>
    match Operator.atStart (c :: rest) with
    | some (operator, literal) => some ([], operator, literal)
    | none => (splitAtOperator rest).map fun (field, found) => (c :: field, found)

namespace Condition

/-- The condition in its printed form. -/
def display (c : Condition) : String := c.field ++ c.operator.symbol ++ c.literal

/-- Reads a field, an operator and a literal that may be quoted; blanks around each do not count and
the field may not be empty. -/
def ofText (s : String) : Except MalformedText Condition :=
  match splitAtOperator (Text.trim s.toList) with
  | none => .error ⟨s⟩
  | some (field, operator, literal) =>
    let field := Text.trim field
    if field.isEmpty then .error ⟨s⟩
    else .ok ⟨String.ofList field, operator, String.ofList (unquote (Text.trim literal))⟩

/-- Reads conditions with semicolons between them; empty pieces do not count. -/
def groupOfText (s : String) : Except MalformedText (List Condition) :=
  let pieces := (Text.splitAll ';' s.toList).map Text.trim
  (pieces.filter fun piece => !piece.isEmpty).mapM fun piece => ofText (String.ofList piece)

end Condition

/-! ## Cuts -/

/-- A field and a value it must have. -/
structure Cut where
  field : String
  value : String
deriving DecidableEq

/-- Reads a field, a colon and a value that may be quoted. -/
def Cut.ofText (s : String) : Except MalformedText Cut :=
  match Text.splitFirst ':' s.toList with
  | none => .error ⟨s⟩
  | some (field, value) =>
    let field := Text.trim field
    if field.isEmpty then .error ⟨s⟩
    else .ok ⟨String.ofList field, String.ofList (unquote (Text.trim value))⟩

/-! ## Order keys -/

/-- The direction of an order key. -/
inductive Direction
  | ascending
  | descending
deriving DecidableEq, Repr

/-- The word for a direction. -/
def Direction.word : Direction → String
  | .ascending => "asc"
  | .descending => "desc"

/-- The direction a word names, blanks and letter case aside. -/
def Direction.ofWord? (s : List Char) : Option Direction :=
  let word := (Text.trim s).map Char.toLower
  if word == ['a', 's', 'c'] then some .ascending
  else if word == ['d', 'e', 's', 'c'] then some .descending
  else none

/-- A field to order by and the direction. -/
structure OrderKey where
  field : String
  direction : Direction
deriving DecidableEq

/-- Reads a field, or a field, a colon and a direction; without a direction it is ascending. -/
def OrderKey.ofText (s : String) : Except MalformedText OrderKey :=
  let parts := match Text.splitLast ':' s.toList with
    | some (field, word) => (Direction.ofWord? word).map fun direction => (field, direction)
    | none => some (s.toList, .ascending)
  match parts with
  | none => .error ⟨s⟩
  | some (field, direction) =>
    let field := Text.trim field
    if field.isEmpty then .error ⟨s⟩ else .ok ⟨String.ofList field, direction⟩

end FactCube
