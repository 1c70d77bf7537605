import FactCube.Cube.Report

/-!
# Listings

What is printed about a model, about a load and about a taxonomy.
-/

namespace FactCube.Cli

/-! ## Models -/

/-- The line for a valid model. -/
def validLine (schema : Schema) : String :=
  let dimensions := Decimal.integerText schema.dimensions.length
  let fields := Decimal.integerText schema.fields.length
  let views := Decimal.integerText schema.views.length
  "Model '" ++ schema.dataset.name ++
    s!"' is valid: {dimensions} dimension(s), {fields} mapped field(s), {views} view(s)\n"

/-- The marks of a dimension: whether it is a key or a facet, and its place in a taxonomy. -/
def marks (d : Dimension) : List String :=
  let place := match d.taxonomy?, d.level? with
    | some taxonomy, some level => [taxonomy ++ "@" ++ Decimal.integerText level]
    | _, _ => []
  (if d.key then ["key"] else []) ++ (if d.facet then ["facet"] else []) ++ place

/-- What a dimension holds: its datatype, or the names of its attributes. -/
def contentText (d : Dimension) : String :=
  match d.scalarType? with
  | some datatype => datatype.name
  | none => Text.joined "|" (d.attributes.map Attribute.name)

/-- The table of the dimensions. -/
def dimensionTable (schema : Schema) : String :=
  Table.render ["dimension", "type", "datatype", "flags", "label"]
    (schema.dimensions.map fun d =>
      [d.name, d.kind.name, contentText d, Text.joined "," (marks d), d.label])

/-- The table of the views. -/
def viewTable (schema : Schema) : String :=
  Table.render ["entity", "name", "dimension", "breakdown", "label"]
    (schema.views.map fun v => [v.scope.name, v.name, v.dimension, v.breakdownName, v.label])

/-! ## Loads -/

/-- The line for a load that left a store of a size. -/
def loadLine (report : LoadReport) (size : Nat) : String :=
  let loaded := Decimal.integerText report.loaded
  let facts := Decimal.integerText size
  let replaced := Decimal.integerText report.replaced
  let skipped := Decimal.integerText report.skipped.length
  s!"Loaded {loaded} row(s) into {facts} fact(s); {replaced} replaced, {skipped} skipped\n"

/-! ## Taxonomies -/

/-- The heading of a level and the table of its entries; a level that is not there has none. -/
def levelListing? (index : TaxonomyIndex) (taxonomy : String) (level : Nat) : Option String :=
  (index.dimensionOf? taxonomy level).map fun dimension =>
    taxonomy ++ " level " ++ Decimal.integerText level ++ " (" ++ dimension ++ ")\n" ++
      classifierTable (index.members taxonomy level)

end FactCube.Cli
