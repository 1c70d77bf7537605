import FactCube.Bytes.Utf8
import FactCube.Hash.Sha256
import FactCube.Model.Schema

/-!
# Fact records

A fact record holds a value for every slot of a schema and an id. The id is the hash of the
identity, the bytes that tell one fact from another: the name of the dataset and the texts of the
key dimensions or, where a dataset has no keys, the texts of all values. Records of a dataset
without keys get an ordinal folded into their id, so that equal rows stay apart.
-/

namespace FactCube

/-! ## Contents -/

/-- What a record holds for a dimension: a value, or one for each attribute. -/
inductive Entry
  | scalar (value : Value)
  | compound (values : List Value)

/-- The contents of a record, in the order of the dimensions. -/
abbrev Contents := List Entry

/-- The value at a field. -/
def valueAt (contents : Contents) (field : Field) : Option Value :=
  match field, contents[field.dimension]? with
  | .scalar _, some (.scalar value) => some value
  | .component _ position, some (.compound values) => values[position]?
  | .datePart _ .year, some (.scalar (.date period)) => some (.string period.yearLabel)
  | .datePart _ .month, some (.scalar (.date period)) => some (.string period.monthLabel)
  | _, _ => none

/-! ## Identity -/

/-- The bytes of a text. -/
def textBytes (s : String) : List UInt8 := Utf8.encode s.toList

/-- The text that identifies a key dimension: its value, or the name of a compound one. -/
def keyText (d : Dimension) (found : Option Entry) : String :=
  match d.content, found with
  | .scalar _ _, some (.scalar value) => value.display
  | .compound _, some (.compound values) =>
    match (d.attributeIndex? nameAttribute).bind fun position => values[position]? with
    | some value => value.display
    | none => ""
  | _, _ => ""

/-- The texts of the key dimensions. -/
def keyTexts (schema : Schema) (contents : Contents) : List String :=
  schema.keys.map fun (index, d) => keyText d contents[index]?

/-- The bytes of all values of an entry, each after its separator. -/
def entryBytes : Entry → List UInt8
  | .scalar value => 0x1F :: textBytes value.display
  | .compound values => values.flatMap fun value => 0x1E :: textBytes value.display

/-- The bytes that tell a fact from others. -/
def identity (schema : Schema) (contents : Contents) : List UInt8 :=
  textBytes schema.dataset.name ++
    if schema.keys.isEmpty then contents.flatMap entryBytes
    else (keyTexts schema contents).flatMap fun text => 0x1F :: textBytes text

/-- Eight bytes of a count, the least significant first. -/
def ordinalBytes (n : Nat) : List UInt8 :=
  [0, 8, 16, 24, 32, 40, 48, 56].map fun shift => UInt8.ofNat (n >>> shift)

/-! ## Records -/

/-- A fact. -/
structure Record where
  id : String
  contents : Contents

namespace Record

/-- The record of some contents. -/
def ofContents (schema : Schema) (contents : Contents) : Record :=
  ⟨Sha256.hex (identity schema contents), contents⟩

/-- The record with an ordinal folded into its id. -/
def withOrdinal (record : Record) (ordinal : Nat) : Record :=
  { record with id := Sha256.hex (textBytes record.id ++ 0x1D :: ordinalBytes ordinal) }

/-- The value at a field. -/
def value? (record : Record) (field : Field) : Option Value := valueAt record.contents field

end Record

/-! ## Export -/

/-- A value as JSON. -/
def Value.toJson : Value → Json
  | .string s => .string s
  | .integer n => .integer n
  | .float x => .float x
  | .boolean b => .boolean b
  | .date p => .string p.text

/-- The members of a compound entry: its attributes, and the taxonomy unless an attribute has that
name. -/
def compoundMembers (d : Dimension) (values : List Value) : List (String × Json) :=
  let attributes := (d.attributes.zip values).map fun (a, value) => (a.name, value.toJson)
  match d.taxonomy? with
  | none => attributes
  | some taxonomy =>
    if attributes.any fun m => m.1 == "taxonomy" then attributes
    else attributes ++ [("taxonomy", .string taxonomy)]

/-- The entry of a dimension as JSON. -/
def entryJson (d : Dimension) : Entry → Json
  | .scalar value => value.toJson
  | .compound values => Json.sorted (compoundMembers d values)

/-- The record as a JSON object: its id, then a member for each dimension, sorted by name. -/
def Record.toJson (schema : Schema) (record : Record) : Json :=
  Json.sorted
    (("id", .string record.id) ::
      (schema.dimensions.zip record.contents).map fun (d, entry) => (d.name, entryJson d entry))

end FactCube
