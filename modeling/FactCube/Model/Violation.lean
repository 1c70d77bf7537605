import FactCube.Decimal.Layout
import FactCube.Text.Split
import FactCube.Value.DataType

/-!
# Violations

The rules a model document can break, each with what is needed to name the place. A rejected
document is reported with all its violations at once.
-/

namespace FactCube

/-! ## Rules -/

/-- A broken rule. -/
inductive Violation
  | emptyDatasetName
  | duplicateDimension (dimension : String)
  | unknownDimensionKind (dimension kind : String)
  | unknownDatatype (path datatype : String)
  | missingDatatype (dimension : String)
  | missingAttributes (dimension : String)
  | missingNameAttribute (dimension : String)
  | invalidDefault (path value reason : String)
  | keyNotString (dimension : String) (datatype : DataType)
  | measureNotNumeric (dimension : String) (datatype : DataType)
  | unmappedAttribute (path : String)
  | duplicateMapping (path : String)
  | unknownMappingTarget (path : String)
  | emptyMappingColumn (path : String)
  | duplicateTaxonomyLevel (taxonomy : String) (level : Nat) (dimensions : String)
  | invalidLevel (dimension level : String)
  | unknownViewScope (view entity : String)
  | unknownViewDimension (view dimension : String)
  | viewScopeMismatch (view entity dimension : String)
  | unknownViewBreakdown (view breakdown : String)
  | unknownViewFilter (view key : String)
  | duplicateView (entity dimension name : String)
deriving DecidableEq

/-- The name of the rule. -/
def Violation.rule : Violation → String
  | .emptyDatasetName => "EmptyDatasetName"
  | .duplicateDimension _ => "DuplicateDimension"
  | .unknownDimensionKind _ _ => "UnknownDimensionKind"
  | .unknownDatatype _ _ => "UnknownDatatype"
  | .missingDatatype _ => "MissingDatatype"
  | .missingAttributes _ => "MissingAttributes"
  | .missingNameAttribute _ => "MissingNameAttribute"
  | .invalidDefault _ _ _ => "InvalidDefault"
  | .keyNotString _ _ => "KeyNotString"
  | .measureNotNumeric _ _ => "MeasureNotNumeric"
  | .unmappedAttribute _ => "UnmappedAttribute"
  | .duplicateMapping _ => "DuplicateMapping"
  | .unknownMappingTarget _ => "UnknownMappingTarget"
  | .emptyMappingColumn _ => "EmptyMappingColumn"
  | .duplicateTaxonomyLevel _ _ _ => "DuplicateTaxonomyLevel"
  | .invalidLevel _ _ => "InvalidLevel"
  | .unknownViewScope _ _ => "UnknownViewScope"
  | .unknownViewDimension _ _ => "UnknownViewDimension"
  | .viewScopeMismatch _ _ _ => "ViewScopeMismatch"
  | .unknownViewBreakdown _ _ => "UnknownViewBreakdown"
  | .unknownViewFilter _ _ => "UnknownViewFilter"
  | .duplicateView _ _ _ => "DuplicateView"

/-- The wording of a violation. -/
def Violation.message : Violation → String
  | .emptyDatasetName => "dataset name must not be empty"
  | .duplicateDimension d => s!"dimension '{d}' is declared more than once"
  | .unknownDimensionKind d kind => s!"dimension '{d}' has unknown type '{kind}'"
  | .unknownDatatype path datatype => s!"'{path}' declares unknown datatype '{datatype}'"
  | .missingDatatype d => s!"dimension '{d}' must declare a datatype"
  | .missingAttributes d => s!"dimension '{d}' must declare attributes"
  | .missingNameAttribute d => s!"dimension '{d}' must declare a 'name' attribute"
  | .invalidDefault path value reason =>
    s!"attribute '{path}' has invalid default '{value}': {reason}"
  | .keyNotString d datatype =>
    s!"key dimension '{d}' must be string-typed, found " ++ datatype.name
  | .measureNotNumeric d datatype => s!"measure '{d}' must be numeric, found " ++ datatype.name
  | .unmappedAttribute path => s!"attribute '{path}' has no mapping entry"
  | .duplicateMapping path => s!"attribute '{path}' has more than one mapping entry"
  | .unknownMappingTarget path => s!"mapping entry '{path}' does not match a declared attribute"
  | .emptyMappingColumn path => s!"mapping entry '{path}' names an empty column"
  | .duplicateTaxonomyLevel taxonomy level dimensions =>
    s!"taxonomy '{taxonomy}' declares level {level} more than once ({dimensions})"
  | .invalidLevel d level => s!"dimension '{d}' has invalid level '{level}'"
  | .unknownViewScope view entity => s!"view '{view}' has unknown entity scope '{entity}'"
  | .unknownViewDimension view d => s!"view '{view}' summarizes unknown dimension '{d}'"
  | .viewScopeMismatch view entity d =>
    s!"view '{view}' of scope '{entity}' cannot summarize dimension '{d}'"
  | .unknownViewBreakdown view breakdown =>
    s!"view '{view}' breaks down by unknown dimension '{breakdown}'"
  | .unknownViewFilter view key => s!"view '{view}' filters on unknown attribute '{key}'"
  | .duplicateView entity d name =>
    s!"view '{name}' is declared more than once for {entity}/{d}"

/-! ## Reports -/

/-- A rejected model: its dataset and the violations in the order in which they were found. -/
structure InvalidModel where
  dataset : String
  violations : List Violation
deriving DecidableEq

/-- The wording of a report: a line for the model and one for each violation. -/
def InvalidModel.message (m : InvalidModel) : String :=
  let count := Decimal.integerText m.violations.length
  "invalid model for dataset '" ++ m.dataset ++ "' (" ++ count ++ " violation(s)):\n" ++
    Text.joined "\n" (m.violations.map fun v => "  - " ++ v.message)

end FactCube
