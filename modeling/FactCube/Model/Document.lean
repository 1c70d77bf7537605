import FactCube.Decimal.Layout
import FactCube.Json.Basic
import FactCube.Model.Shape

/-!
# Model documents

A model document describes a dataset as its author wrote it: the dataset, the column each attribute
is read from, the dimensions and the named views. Entries of tables keep their order, and repeated
names stay until the document is validated.
-/

namespace FactCube

/-! ## Parts -/

/-- The dataset a model describes. -/
structure Dataset where
  name : String
  label : String
  description : String
  currency : String
deriving DecidableEq

/-- An attribute of a compound dimension as declared. -/
structure AttributeSpec where
  datatype : String
  default? : Option Literal

/-- A dimension as declared. -/
structure DimensionSpec where
  kind : String
  label : String
  description : String
  datatype? : Option String
  attributes : List (String × AttributeSpec)
  default? : Option Literal
  facet : Bool
  key : Bool
  taxonomy? : Option String
  level? : Option Literal
  changeDate? : Option String

/-- A named view as declared. -/
structure ViewSpec where
  entity : String
  label : String
  name : String
  dimension : String
  breakdown : String
  filters : List (String × Literal)

/-- A model document: `mapping` gives the column of each attribute path. -/
structure Document where
  dataset : Dataset
  mapping : List (String × String)
  dimensions : List (String × DimensionSpec)
  views : List ViewSpec

/-- The text of a literal. -/
def Literal.display : Literal → String
  | .text s => s
  | .integer n => Decimal.integerText n
  | .float x => Decimal.plain x
  | .boolean b => if b then "true" else "false"

/-! ## Shape -/

namespace Document

/-- The shape of a dataset. -/
def datasetShape : Shape :=
  .record
    [("name", .defaulted, .text), ("label", .defaulted, .text),
     ("description", .defaulted, .text), ("currency", .defaulted, .text)]

/-- The shape of a mapping entry. -/
def mappingShape : Shape := .record [("column", .required, .text)]

/-- The shape of an attribute. -/
def attributeShape : Shape :=
  .record [("datatype", .required, .text), ("default_value", .optional, .literal)]

/-- The shape of a dimension. -/
def dimensionShape : Shape :=
  .record
    [("type", .required, .text), ("label", .defaulted, .text), ("description", .defaulted, .text),
     ("datatype", .optional, .text), ("attributes", .defaulted, .keyed attributeShape),
     ("default_value", .optional, .literal), ("facet", .defaulted, .flag),
     ("key", .defaulted, .flag), ("taxonomy", .optional, .text), ("level", .optional, .literal),
     ("change_date", .optional, .text)]

/-- The shape of a view. -/
def viewShape : Shape :=
  .record
    [("entity", .required, .text), ("label", .defaulted, .text), ("name", .required, .text),
     ("dimension", .required, .text), ("breakdown", .required, .text),
     ("filters", .defaulted, .keyed .literal)]

/-- The shape of a document. -/
def shape : Shape :=
  .record
    [("dataset", .required, datasetShape), ("mapping", .defaulted, .keyed mappingShape),
     ("dimensions", .defaulted, .keyed dimensionShape), ("views", .defaulted, .listed viewShape)]

/-! ## From data -/

/-- The dataset in some data. -/
def datasetOf (d : Datum) : Dataset :=
  { name := (d.field "name").textOrEmpty
    label := (d.field "label").textOrEmpty
    description := (d.field "description").textOrEmpty
    currency := (d.field "currency").textOrEmpty }

/-- The attribute in some data. -/
def attributeOf (d : Datum) : AttributeSpec :=
  { datatype := (d.field "datatype").textOrEmpty
    default? := (d.field "default_value").literal? }

/-- The dimension in some data. -/
def dimensionOf (d : Datum) : DimensionSpec :=
  { kind := (d.field "type").textOrEmpty
    label := (d.field "label").textOrEmpty
    description := (d.field "description").textOrEmpty
    datatype? := (d.field "datatype").text?
    attributes := (d.field "attributes").entries.map fun (name, a) => (name, attributeOf a)
    default? := (d.field "default_value").literal?
    facet := (d.field "facet").isSet
    key := (d.field "key").isSet
    taxonomy? := (d.field "taxonomy").text?
    level? := (d.field "level").literal?
    changeDate? := (d.field "change_date").text? }

/-- The view in some data. -/
def viewOf (d : Datum) : ViewSpec :=
  { entity := (d.field "entity").textOrEmpty
    label := (d.field "label").textOrEmpty
    name := (d.field "name").textOrEmpty
    dimension := (d.field "dimension").textOrEmpty
    breakdown := (d.field "breakdown").textOrEmpty
    filters := (d.field "filters").entries.map fun (key, l) =>
      (key, l.literal?.getD (.text "")) }

/-- The document in some data of its shape. -/
def ofDatum (d : Datum) : Document :=
  { dataset := datasetOf (d.field "dataset")
    mapping := (d.field "mapping").entries.map fun (path, entry) =>
      (path, (entry.field "column").textOrEmpty)
    dimensions := (d.field "dimensions").entries.map fun (name, spec) => (name, dimensionOf spec)
    views := (d.field "views").items.map viewOf }

/-! ## As JSON -/

/-- A member that is left out if its value is absent. -/
def member? (name : String) (value : Option Json) : List (String × Json) :=
  match value with
  | some value => [(name, value)]
  | none => []

/-- A literal as JSON. -/
def literalJson : Literal → Json
  | .text s => .string s
  | .integer n => .integer n
  | .float x => .float x
  | .boolean b => .boolean b

/-- A dataset as JSON. -/
def datasetJson (d : Dataset) : Json :=
  .object
    [("name", .string d.name), ("label", .string d.label),
     ("description", .string d.description), ("currency", .string d.currency)]

/-- An attribute as JSON. -/
def attributeJson (a : AttributeSpec) : Json :=
  .object (("datatype", .string a.datatype) :: member? "default_value" (a.default?.map literalJson))

/-- The attributes of a dimension, left out if there are none. -/
def attributesJson (attributes : List (String × AttributeSpec)) : Option Json :=
  if attributes.isEmpty then none
  else some (.object (attributes.map fun (name, a) => (name, attributeJson a)))

/-- A dimension as JSON. -/
def dimensionJson (d : DimensionSpec) : Json :=
  .object
    ([("type", .string d.kind), ("label", .string d.label),
      ("description", .string d.description)] ++
     member? "datatype" (d.datatype?.map .string) ++
     member? "attributes" (attributesJson d.attributes) ++
     member? "default_value" (d.default?.map literalJson) ++
     [("facet", .boolean d.facet), ("key", .boolean d.key)] ++
     member? "taxonomy" (d.taxonomy?.map .string) ++
     member? "level" (d.level?.map literalJson) ++
     member? "change_date" (d.changeDate?.map .string))

/-- A view as JSON. -/
def viewJson (v : ViewSpec) : Json :=
  .object
    [("entity", .string v.entity), ("label", .string v.label), ("name", .string v.name),
     ("dimension", .string v.dimension), ("breakdown", .string v.breakdown),
     ("filters", .object (v.filters.map fun (key, l) => (key, literalJson l)))]

/-- A document as JSON: defaults filled in, absent options and empty attributes left out. -/
def toJson (doc : Document) : Json :=
  .object
    [("dataset", datasetJson doc.dataset),
     ("mapping", .object (doc.mapping.map fun (path, column) =>
       (path, .object [("column", .string column)]))),
     ("dimensions", .object (doc.dimensions.map fun (name, d) => (name, dimensionJson d))),
     ("views", .array (doc.views.map viewJson))]

/-- The text of a document. -/
def text (doc : Document) : String := doc.toJson.compact

/-! ## Changes -/

/-- Changes the first dimension of a name, if there is one. -/
def changeDimension? (change : DimensionSpec → DimensionSpec) (name : String) (doc : Document) :
    Option Document :=
  let before := doc.dimensions.takeWhile fun d => d.1 != name
  match doc.dimensions.dropWhile fun d => d.1 != name with
  | [] => none
  | (name, spec) :: after =>
    some { doc with dimensions := before ++ (name, change spec) :: after }

end Document

end FactCube
