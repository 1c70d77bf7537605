import FactCube.Model.Schema
import FactCube.Model.Violation
import FactCube.Value.Reader

/-!
# Validation

`Document.validate` turns a document into a schema or reports every violation in it. The checks come
in a fixed order: the dataset, the dimensions, the mapping, keys and measures, taxonomies, views.
Each check gives what it builds together with the violations it found; what is built from a faulty
part is only used to look for further violations.
-/

namespace FactCube.Validation

/-! ## Dimensions -/

/-- The datatype a text names, string if it names none. -/
def checkDatatype (path raw : String) : DataType × List Violation :=
  match DataType.ofText? raw with
  | some datatype => (datatype, [])
  | none => (.string, [.unknownDatatype path raw])

/-- The declared default as a value of the datatype. -/
def checkDefault (path : String) (literal? : Option Literal) (datatype : DataType) :
    Option Value × List Violation :=
  match literal? with
  | none => (none, [])
  | some literal =>
    match Value.ofText datatype literal.display with
    | .ok value => (some value, [])
    | .error fault => (none, [.invalidDefault path literal.display fault.message])

/-- One attribute of a compound dimension. -/
def checkAttribute (dimension name : String) (spec : AttributeSpec) :
    Attribute × List Violation :=
  let path := dimension ++ "." ++ name
  let (datatype, typeViolations) := checkDatatype path spec.datatype
  let (default?, defaultViolations) := checkDefault path spec.default? datatype
  (⟨name, datatype, default?⟩, typeViolations ++ defaultViolations)

/-- A compound dimension needs attributes, one of them the name. -/
def checkAttributeNames (dimension : String) (attributes : List (String × AttributeSpec)) :
    List Violation :=
  if attributes.isEmpty then [.missingAttributes dimension]
  else if attributes.any fun a => a.1 == nameAttribute then []
  else [.missingNameAttribute dimension]

/-- What a dimension of a kind holds. -/
def checkContent (name : String) (kind : DimensionKind) (spec : DimensionSpec) :
    DimensionContent × List Violation :=
  if kind.isCompound then
    let checked := spec.attributes.map fun (attr, attrSpec) => checkAttribute name attr attrSpec
    (.compound (checked.map Prod.fst),
      checkAttributeNames name spec.attributes ++ checked.flatMap Prod.snd)
  else
    let (datatype, typeViolations) := match spec.datatype? with
      | some raw => checkDatatype name raw
      | none => (.string, [.missingDatatype name])
    let (default?, defaultViolations) := checkDefault name spec.default? datatype
    (.scalar datatype default?, typeViolations ++ defaultViolations)

/-- The declared level, a 32-bit count. -/
def checkLevel (name : String) (level? : Option Literal) : Option Nat × List Violation :=
  match level? with
  | none => (none, [])
  | some literal =>
    match Decimal.count? Decimal.greatest32 (Text.trim literal.display.toList) with
    | some level => (some level, [])
    | none => (none, [.invalidLevel name literal.display])

/-- A classifier without a taxonomy forms its own. -/
def taxonomyOf (name : String) (kind : DimensionKind) (taxonomy? : Option String) : Option String :=
  if kind == .classifier then some (taxonomy?.getD name) else taxonomy?

/-- A dimension whose kind is known. -/
def checkDimension (name : String) (kind : DimensionKind) (spec : DimensionSpec) :
    Dimension × List Violation :=
  let (content, contentViolations) := checkContent name kind spec
  let (level?, levelViolations) := checkLevel name spec.level?
  ({ name := name
     kind := kind
     label := spec.label
     description := spec.description
     facet := spec.facet
     key := spec.key
     taxonomy? := taxonomyOf name kind spec.taxonomy?
     level? := level?
     changeDate? := spec.changeDate?
     content := content },
   contentViolations ++ levelViolations)

/-- The accepted dimensions, the names of declarations without a known kind, and the violations. -/
structure Declarations where
  dimensions : List Dimension
  rejected : List String
  violations : List Violation

/-- Goes through the declarations in order; `seen` holds the names before them. A repeated name is
not looked at further. -/
def checkDimensions : List String → List (String × DimensionSpec) → Declarations
  | _, [] => ⟨[], [], []⟩
  | seen, (name, spec) :: specs =>
    if seen.contains name then
      let rest := checkDimensions seen specs
      { rest with violations := .duplicateDimension name :: rest.violations }
    else
      let rest := checkDimensions (name :: seen) specs
      match DimensionKind.ofName? spec.kind with
      | none =>
        { rest with
          rejected := name :: rest.rejected
          violations := .unknownDimensionKind name spec.kind :: rest.violations }
      | some kind =>
        let (dimension, violations) := checkDimension name kind spec
        { rest with
          dimensions := dimension :: rest.dimensions
          violations := violations ++ rest.violations }

/-! ## Mapping -/

/-- A place in a record that has to be filled from a column. -/
structure Slot where
  path : String
  target : Field
  datatype : DataType
  default? : Option Value
  optional : Bool

/-- The slots of a dimension at a position. Only string attributes may stay blank. -/
def slotsOf (index : Nat) (d : Dimension) : List Slot :=
  match d.content with
  | .scalar datatype default? => [⟨d.name, .scalar index, datatype, default?, false⟩]
  | .compound attributes =>
    attributes.zipIdx.map fun (a, position) =>
      ⟨d.name ++ "." ++ a.name, .component index position, a.datatype, a.default?,
        a.datatype == .string⟩

/-- The slots of all dimensions, in the order of their declaration. -/
def slots (dimensions : List Dimension) : List Slot :=
  dimensions.zipIdx.flatMap fun (d, index) => slotsOf index d

/-- The columns of the mapping entries of a path. -/
def columnsOf (mapping : List (String × String)) (path : String) : List String :=
  (mapping.filter fun entry => entry.1 == path).map Prod.snd

/-- Mapping entries have to name a column. -/
def checkColumns (mapping : List (String × String)) : List Violation :=
  (mapping.filter fun entry => Text.isBlankText entry.2).map fun entry =>
    .emptyMappingColumn entry.1

/-- A slot has to have exactly one mapping entry. -/
def checkSlot (mapping : List (String × String)) (slot : Slot) :
    Option MappedField × List Violation :=
  match columnsOf mapping slot.path with
  | [] => (none, [.unmappedAttribute slot.path])
  | [column] =>
    (some ⟨slot.path, column, slot.target, slot.datatype, slot.default?, slot.optional⟩, [])
  | _ => (none, [.duplicateMapping slot.path])

/-- Mapping entries have to name a slot. An entry is reported once, and not at all if it belongs to
a rejected dimension. -/
def checkTargets (paths rejected : List String) :
    List String → List (String × String) → List Violation
  | _, [] => []
  | reported, (path, _) :: entries =>
    let belongsToRejected := rejected.contains (Schema.splitPath path).1
    if paths.contains path || belongsToRejected || reported.contains path then
      checkTargets paths rejected reported entries
    else .unknownMappingTarget path :: checkTargets paths rejected (path :: reported) entries

/-- The mapped fields, one for each slot. -/
def checkMapping (mapping : List (String × String)) (declared : Declarations) :
    List MappedField × List Violation :=
  let slots := slots declared.dimensions
  let checked := slots.map (checkSlot mapping)
  (checked.filterMap Prod.fst,
   checkColumns mapping ++ checked.flatMap Prod.snd ++
     checkTargets (slots.map Slot.path) declared.rejected [] mapping)

/-! ## Keys and measures -/

/-- The datatype of the text that identifies a member of a dimension. -/
def keyType? (d : Dimension) : Option DataType :=
  match d.content with
  | .scalar datatype _ => some datatype
  | .compound _ => (d.attribute? nameAttribute).map Attribute.datatype

/-- Keys are strings. -/
def checkKey (d : Dimension) : List Violation :=
  if d.key then
    match keyType? d with
    | some datatype => if datatype == .string then [] else [.keyNotString d.name datatype]
    | none => []
  else []

/-- Measures are numbers. -/
def checkMeasure (d : Dimension) : List Violation :=
  if d.kind == .measure then
    match d.scalarType? with
    | some datatype => if datatype.isNumeric then [] else [.measureNotNumeric d.name datatype]
    | none => []
  else []

/-- Keys and measures have the right datatype. -/
def checkRoles (dimensions : List Dimension) : List Violation :=
  dimensions.flatMap fun d => checkKey d ++ checkMeasure d

/-! ## Taxonomies -/

/-- The classifiers of a taxonomy with their positions, in the order of declaration. -/
def classifiersOf (dimensions : List Dimension) (taxonomy : String) : List (Nat × Dimension) :=
  (dimensions.zipIdx.map fun (d, i) => (i, d)).filter fun (_, d) =>
    d.kind == .classifier && d.taxonomy? == some taxonomy

/-- The names of the taxonomies, in the order of their first classifier. -/
def taxonomyNames : List String → List Dimension → List String
  | _, [] => []
  | seen, d :: dimensions =>
    match d.kind, d.taxonomy? with
    | .classifier, some name =>
      if seen.contains name then taxonomyNames seen dimensions
      else name :: taxonomyNames (name :: seen) dimensions
    | _, _ => taxonomyNames seen dimensions

/-- The levels in ascending order; equal levels keep their order. -/
def sortLevels (levels : List TaxonomyLevel) : List TaxonomyLevel :=
  levels.mergeSort fun a b => a.level ≤ b.level

/-- The levels that classifiers of a taxonomy declare. -/
def declaredLevels (classifiers : List (Nat × Dimension)) : List TaxonomyLevel :=
  sortLevels (classifiers.filterMap fun (index, d) => d.level?.map fun level => ⟨level, index⟩)

/-- The least level from 1 on that is not taken. -/
def freeLevel (taken : List Nat) : Nat :=
  (((List.range (taken.length + 1)).map (· + 1)).find? fun level => !taken.contains level).getD 1

/-- Gives each classifier the least free level, in order. -/
def assignLevels : List Nat → List Nat → List TaxonomyLevel
  | _, [] => []
  | taken, index :: rest =>
    let level := freeLevel taken
    ⟨level, index⟩ :: assignLevels (level :: taken) rest

/-- The taxonomy of some classifiers: those without a level fill the gaps that the declared levels
leave. -/
def taxonomyFrom (name : String) (classifiers : List (Nat × Dimension)) : Taxonomy :=
  let declared := declaredLevels classifiers
  let undeclared := (classifiers.filter fun (_, d) => d.level?.isNone).map Prod.fst
  ⟨name, sortLevels (declared ++ assignLevels (declared.map TaxonomyLevel.level) undeclared)⟩

/-- The taxonomies of the classifiers. -/
def taxonomies (dimensions : List Dimension) : List Taxonomy :=
  (taxonomyNames [] dimensions).map fun name => taxonomyFrom name (classifiersOf dimensions name)

/-- The name of the dimension at a position. -/
def nameAt (dimensions : List Dimension) (index : Nat) : String :=
  (dimensions[index]?.map Dimension.name).getD ""

/-- Two classifiers of a taxonomy may not declare the same level; the levels are given in ascending
order. -/
def checkLevels (taxonomy : String) (dimensions : List Dimension) (levels : List TaxonomyLevel) :
    List Violation :=
  let distinct := levels.map TaxonomyLevel.level |>.eraseReps
  distinct.flatMap fun level =>
    let sharing := levels.filter fun l => l.level == level
    if sharing.length ≤ 1 then []
    else [.duplicateTaxonomyLevel taxonomy level
      (Text.joined ", " (sharing.map fun l => nameAt dimensions l.dimension))]

/-- The levels that classifiers declare have to be distinct in each taxonomy. -/
def checkTaxonomies (dimensions : List Dimension) : List Violation :=
  (taxonomyNames [] dimensions).flatMap fun name =>
    checkLevels name dimensions (declaredLevels (classifiersOf dimensions name))

/-- The level of the dimension at a position in some taxonomies. -/
def levelIn? (taxonomies : List Taxonomy) (index : Nat) : Option Nat :=
  ((taxonomies.flatMap Taxonomy.levels).find? fun l => l.dimension == index).map
    TaxonomyLevel.level

/-- The dimensions with the levels that the taxonomies give to classifiers. -/
def withLevels (taxonomies : List Taxonomy) (dimensions : List Dimension) : List Dimension :=
  dimensions.zipIdx.map fun (d, index) =>
    if d.kind == .classifier then { d with level? := levelIn? taxonomies index } else d

/-! ## Views -/

/-- Whether a scope is about the members of dimensions of a kind. -/
def suits : ViewScope → DimensionKind → Bool
  | .classifier, .classifier => true
  | .entity, .entity => true
  | _, _ => false

/-- The subject of a view: the dataset for dataset views, else a dimension of the scope's kind. -/
def checkSubject (schema : Schema) (scope : ViewScope) (spec : ViewSpec) :
    Option Nat × List Violation :=
  let mismatch : Violation := .viewScopeMismatch spec.name spec.entity spec.dimension
  if spec.dimension == datasetSubject then
    (none, if scope == .dataset then [] else [mismatch])
  else
    match schema.dimensionIndex? spec.dimension with
    | none => (none, [.unknownViewDimension spec.name spec.dimension])
    | some index =>
      match schema.dimensions[index]? with
      | some d => (some index, if suits scope d.kind then [] else [mismatch])
      | none => (none, [])

/-- The property of the scope that a filter key names; such keys win over paths. -/
def scopeProperty? : ViewScope → String → Option ScopeProperty
  | .dataset, key =>
    if key == "name" then some .datasetName
    else if key == "label" then some .datasetLabel
    else if key == "currency" then some .datasetCurrency
    else none
  | .classifier, key => if key == "taxonomy" then some .taxonomy else none
  | .entity, _ => none

/-- The field a filter key names: an attribute of the subject, else a path. -/
def filterField? (schema : Schema) (subject? : Option Nat) (key : String) : Option Field :=
  let ofSubject := subject?.bind fun index =>
    (schema.dimensions[index]?).bind fun d =>
      (d.attributeIndex? key).map fun position => Field.component index position
  match ofSubject with
  | some field => some field
  | none => schema.resolve? key

/-- The filter a key and a literal stand for. -/
def filterOf? (schema : Schema) (scope : ViewScope) (subject? : Option Nat) (key : String)
    (literal : Literal) : Option ViewFilter :=
  match scopeProperty? scope key with
  | some property => some (.scope key property literal.display)
  | none =>
    (filterField? schema subject? key).map fun field => .fact key field literal.display

/-- The filters of a view. -/
def checkFilters (schema : Schema) (scope : ViewScope) (subject? : Option Nat) (spec : ViewSpec) :
    List ViewFilter × List Violation :=
  let checked := spec.filters.map fun (key, literal) =>
    (key, filterOf? schema scope subject? key literal)
  (checked.filterMap Prod.snd,
   (checked.filter fun c => c.2.isNone).map fun c => .unknownViewFilter spec.name c.1)

/-- What identifies a view: its scope, the dimension it is about and its name. -/
abbrev ViewKey := ViewScope × String × String

/-- A view whose scope is known; `seen` holds the keys of the views before it. -/
def checkView (schema : Schema) (seen : List ViewKey) (scope : ViewScope) (spec : ViewSpec) :
    Option View × List Violation :=
  let (subject?, subjectViolations) := checkSubject schema scope spec
  let breakdown? := schema.resolve? spec.breakdown
  let breakdownViolations := match breakdown? with
    | some _ => []
    | none => [Violation.unknownViewBreakdown spec.name spec.breakdown]
  let (filters, filterViolations) := checkFilters schema scope subject? spec
  let duplicates :=
    if seen.contains (scope, spec.dimension, spec.name) then
      [Violation.duplicateView spec.entity spec.dimension spec.name]
    else []
  (breakdown?.map fun breakdown =>
     { scope := scope
       name := spec.name
       label := spec.label
       subject? := subject?
       dimension := spec.dimension
       breakdown := breakdown
       breakdownName := spec.breakdown
       filters := filters },
   subjectViolations ++ breakdownViolations ++ filterViolations ++ duplicates)

/-- Goes through the views in order; `seen` holds the keys before them. -/
def checkViews (schema : Schema) : List ViewKey → List ViewSpec → List View × List Violation
  | _, [] => ([], [])
  | seen, spec :: specs =>
    match ViewScope.ofName? spec.entity with
    | none =>
      let (views, violations) := checkViews schema seen specs
      (views, .unknownViewScope spec.name spec.entity :: violations)
    | some scope =>
      let (view?, found) := checkView schema seen scope spec
      let seen := (scope, spec.dimension, spec.name) :: seen
      let (views, violations) := checkViews schema seen specs
      (view?.toList ++ views, found ++ violations)

/-! ## Documents -/

/-- A dataset has to have a name. -/
def checkDataset (dataset : Dataset) : List Violation :=
  if Text.isBlankText dataset.name then [.emptyDatasetName] else []

/-- The schema of a document, views included, and the violations. -/
def check (doc : Document) : Schema × List Violation :=
  let declared := checkDimensions [] doc.dimensions
  let (fields, mappingViolations) := checkMapping doc.mapping declared
  let taxonomies := taxonomies declared.dimensions
  let schema : Schema :=
    { dataset := doc.dataset
      dimensions := withLevels taxonomies declared.dimensions
      fields := fields
      taxonomies := taxonomies
      views := [] }
  let (views, viewViolations) := checkViews schema [] doc.views
  ({ schema with views := views },
   checkDataset doc.dataset ++ declared.violations ++ mappingViolations ++
     checkRoles declared.dimensions ++ checkTaxonomies declared.dimensions ++ viewViolations)

end FactCube.Validation

namespace FactCube

/-- The schema of a document, or all its violations. -/
def Document.validate (doc : Document) : Except InvalidModel Schema :=
  let (schema, violations) := Validation.check doc
  if violations.isEmpty then .ok schema else .error ⟨doc.dataset.name, violations⟩

end FactCube
