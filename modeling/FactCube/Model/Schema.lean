import FactCube.Model.Document
import FactCube.Value.Basic

/-!
# Schemas

A schema is a validated model. Its dimensions are numbered in the order of their declaration, and
everything that names an attribute in the document has been resolved to a `Field`, a place in the
records of the dataset.
-/

namespace FactCube

/-! ## Dimensions -/

/-- The kinds of dimensions. -/
inductive DimensionKind
  | entity
  | value
  | measure
  | classifier
deriving DecidableEq, Repr

namespace DimensionKind

/-- The name of a kind. -/
def name : DimensionKind → String
  | .entity => "entity"
  | .value => "value"
  | .measure => "measure"
  | .classifier => "classifier"

/-- The kind of a name. -/
def ofName? (s : String) : Option DimensionKind :=
  [entity, value, measure, classifier].find? fun kind => kind.name == s

/-- Whether dimensions of the kind have attributes rather than a value of their own. -/
def isCompound : DimensionKind → Bool
  | .entity | .classifier => true
  | .value | .measure => false

end DimensionKind

/-- An attribute of a compound dimension. -/
structure Attribute where
  name : String
  datatype : DataType
  default? : Option Value

/-- What a dimension holds: one value, or one for each attribute. -/
inductive DimensionContent
  | scalar (datatype : DataType) (default? : Option Value)
  | compound (attributes : List Attribute)

/-- A dimension. The level is the declared one or, for a classifier, the one it was given. -/
structure Dimension where
  name : String
  kind : DimensionKind
  label : String
  description : String
  facet : Bool
  key : Bool
  taxonomy? : Option String
  level? : Option Nat
  changeDate? : Option String
  content : DimensionContent

/-- The attribute that names the members of a compound dimension. -/
def nameAttribute : String := "name"

namespace Dimension

/-- The attributes, none for a scalar dimension. -/
def attributes (d : Dimension) : List Attribute :=
  match d.content with
  | .compound attributes => attributes
  | .scalar _ _ => []

/-- The position of the first attribute of a name. -/
def attributeIndex? (d : Dimension) (name : String) : Option Nat :=
  d.attributes.findIdx? fun a => a.name == name

/-- The first attribute of a name. -/
def attribute? (d : Dimension) (name : String) : Option Attribute :=
  d.attributes.find? fun a => a.name == name

/-- The datatype of a scalar dimension. -/
def scalarType? (d : Dimension) : Option DataType :=
  match d.content with
  | .scalar datatype _ => some datatype
  | .compound _ => none

/-- Whether the dimension has attributes. -/
def isCompound (d : Dimension) : Bool :=
  match d.content with
  | .compound _ => true
  | .scalar _ _ => false

end Dimension

/-! ## Fields -/

/-- A part of a date that can be asked for. -/
inductive DatePart
  | year
  | month
deriving DecidableEq, Repr

/-- The last segment of the path of a date part. -/
def DatePart.name : DatePart → String
  | .year => "year"
  | .month => "month"

/-- The date part a path asks for. -/
def DatePart.ofName? (s : String) : Option DatePart :=
  if s == "year" then some .year
  else if s == "month" || s == "yearmonth" then some .month
  else none

/-- A place in a record: a scalar dimension, an attribute of a compound one, or a part of a date. -/
inductive Field
  | scalar (dimension : Nat)
  | component (dimension position : Nat)
  | datePart (dimension : Nat) (part : DatePart)
deriving DecidableEq, Repr

/-- The dimension a field belongs to. -/
def Field.dimension : Field → Nat
  | .scalar d | .component d _ | .datePart d _ => d

/-- A slot of a record together with the column it is read from. An optional slot is blank where its
column is missing. -/
structure MappedField where
  path : String
  column : String
  target : Field
  datatype : DataType
  default? : Option Value
  optional : Bool

/-! ## Taxonomies -/

/-- A level of a taxonomy and the classifier that holds it. -/
structure TaxonomyLevel where
  level : Nat
  dimension : Nat
deriving DecidableEq

/-- A taxonomy with its levels in ascending order. -/
structure Taxonomy where
  name : String
  levels : List TaxonomyLevel
deriving DecidableEq

/-- The classifier that holds a level. -/
def Taxonomy.dimension? (t : Taxonomy) (level : Nat) : Option Nat :=
  (t.levels.find? fun l => l.level == level).map TaxonomyLevel.dimension

/-! ## Views -/

/-- What a view is about: the whole dataset, the members of a classifier or those of an entity. -/
inductive ViewScope
  | dataset
  | classifier
  | entity
deriving DecidableEq, Repr

/-- The name of a scope. -/
def ViewScope.name : ViewScope → String
  | .dataset => "dataset"
  | .classifier => "classifier"
  | .entity => "entity"

/-- The scope of a name. -/
def ViewScope.ofName? (s : String) : Option ViewScope :=
  [ViewScope.dataset, .classifier, .entity].find? fun scope => scope.name == s

/-- A property of the object a view is about. -/
inductive ScopeProperty
  | datasetName
  | datasetLabel
  | datasetCurrency
  | taxonomy
deriving DecidableEq, Repr

/-- The name of a property. -/
def ScopeProperty.name : ScopeProperty → String
  | .datasetName => "dataset.name"
  | .datasetLabel => "dataset.label"
  | .datasetCurrency => "dataset.currency"
  | .taxonomy => "taxonomy"

/-- A filter of a view: on its scope, settled once for all facts, or on a field of each fact. Both
compare texts. -/
inductive ViewFilter
  | scope (key : String) (property : ScopeProperty) (expected : String)
  | fact (key : String) (field : Field) (expected : String)
deriving DecidableEq

/-- A named view: a breakdown of all facts, or of those of one member of its subject. -/
structure View where
  scope : ViewScope
  name : String
  label : String
  subject? : Option Nat
  dimension : String
  breakdown : Field
  breakdownName : String
  filters : List ViewFilter
deriving DecidableEq

/-- The subject of views on the whole dataset. -/
def datasetSubject : String := "dataset"

/-! ## Schemas -/

/-- A validated model. -/
structure Schema where
  dataset : Dataset
  dimensions : List Dimension
  fields : List MappedField
  taxonomies : List Taxonomy
  views : List View

namespace Schema

/-- The position of the first dimension of a name. -/
def dimensionIndex? (schema : Schema) (name : String) : Option Nat :=
  schema.dimensions.findIdx? fun d => d.name == name

/-- The first dimension of a name. -/
def dimension? (schema : Schema) (name : String) : Option Dimension :=
  schema.dimensions.find? fun d => d.name == name

/-- The dimensions with their positions. -/
def numbered (schema : Schema) : List (Nat × Dimension) :=
  schema.dimensions.zipIdx.map fun (d, i) => (i, d)

/-- The measures with their positions. -/
def measures (schema : Schema) : List (Nat × Dimension) :=
  schema.numbered.filter fun (_, d) => d.kind == .measure

/-- The key dimensions with their positions. -/
def keys (schema : Schema) : List (Nat × Dimension) :=
  schema.numbered.filter fun (_, d) => d.key

/-- The dimensions that are facets. -/
def facets (schema : Schema) : List Dimension := schema.dimensions.filter Dimension.facet

/-- The dimensions with attributes. -/
def compounds (schema : Schema) : List Dimension := schema.dimensions.filter Dimension.isCompound

/-- The taxonomy of a name. -/
def taxonomy? (schema : Schema) (name : String) : Option Taxonomy :=
  schema.taxonomies.find? fun t => t.name == name

/-! ## Paths -/

/-- The dimension a path starts with and, after the first point, the rest of the path. -/
def splitPath (path : String) : String × Option String :=
  match Text.splitFirst '.' path.toList with
  | some (head, tail) => (String.ofList head, some (String.ofList tail))
  | none => (path, none)

/-- The field a path names. A date has parts, and a compound dimension stands for its name
attribute. -/
def resolve? (schema : Schema) (path : String) : Option Field :=
  let (head, tail) := splitPath path
  match schema.dimensionIndex? head with
  | none => none
  | some index =>
    match schema.dimensions[index]? with
    | none => none
    | some d =>
      match d.content, tail with
      | .scalar _ _, none => some (.scalar index)
      | .scalar datatype _, some part =>
        if datatype == .date then (DatePart.ofName? part).map fun part => .datePart index part
        else none
      | .compound _, tail =>
        (d.attributeIndex? (tail.getD nameAttribute)).map fun position => .component index position

/-- The name of an attribute by position, empty beyond the last. -/
def attributeName (d : Dimension) (position : Nat) : String :=
  (d.attributes[position]?.map Attribute.name).getD ""

/-- The path of a field. -/
def pathOf (schema : Schema) (field : Field) : String :=
  match schema.dimensions[field.dimension]? with
  | none => ""
  | some d =>
    match field with
    | .scalar _ => d.name
    | .component _ position => d.name ++ "." ++ attributeName d position
    | .datePart _ part => d.name ++ "." ++ part.name

/-- The datatype of the values of a field; parts of dates are strings. -/
def typeOf (schema : Schema) (field : Field) : DataType :=
  match schema.dimensions[field.dimension]?, field with
  | some d, .scalar _ => d.scalarType?.getD .string
  | some d, .component _ position => (d.attributes[position]?.map Attribute.datatype).getD .string
  | _, _ => .string

/-- The first view of a scope and a name; `dimension?` picks among views of that name. -/
def view? (schema : Schema) (entity name : String) (dimension? : Option String) : Option View :=
  schema.views.find? fun v =>
    v.scope.name == entity && v.name == name &&
      (match dimension? with
       | none => true
       | some d => v.dimension == d)

end Schema

end FactCube
