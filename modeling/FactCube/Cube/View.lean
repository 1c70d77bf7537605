import FactCube.Cube.Aggregate

/-!
# Named views

A view groups all facts by its breakdown, or those of one member of its subject. Its scope filters
are settled once: if one does not match, the view is empty. Its other filters compare texts.
-/

namespace FactCube

/-! ## Faults -/

/-- Why a view has no answer. -/
inductive ViewFault
  /-- There is no view of the name in the scope. -/
  | notFound (entity name : String)
  /-- The view cannot be run on the dataset, or not for a member. -/
  | unsuitable (view reason : String)
deriving DecidableEq

/-- The wording of a fault. -/
def ViewFault.message : ViewFault → String
  | .notFound entity name => s!"no view named '{name}' for entity '{entity}'"
  | .unsuitable view reason => s!"view '{view}' cannot be aggregated: {reason}"

/-! ## Answers -/

/-- The answer of a view. -/
structure ViewResult (σ : Type) where
  scope : ViewScope
  name : String
  label : String
  breakdown : String
  measures : List String
  rows : List (GroupRow σ)

/-- The texts of the breakdown with the totals of the first measure. -/
def ViewResult.pairs {σ : Type} (arith : Arithmetic σ) (r : ViewResult σ) : List (String × σ) :=
  r.rows.map fun row =>
    ((row.keys.head?.map Value.display).getD "", row.totals.head?.getD arith.zero)

/-! ## Filters -/

/-- The text of a property of what a view is about. -/
def propertyText? (schema : Schema) (view : View) : ScopeProperty → Option String
  | .datasetName => some schema.dataset.name
  | .datasetLabel => some schema.dataset.label
  | .datasetCurrency => some schema.dataset.currency
  | .taxonomy =>
    view.subject?.bind fun index => (schema.dimensions[index]?).bind Dimension.taxonomy?

/-- Whether all scope filters of a view match. -/
def scopeMatches (schema : Schema) (view : View) : Bool :=
  view.filters.all fun
    | .scope _ property expected => propertyText? schema view property == some expected
    | .fact _ _ _ => true

/-- The filters of a view on facts. -/
def factFilters (view : View) : List FieldPredicate :=
  view.filters.filterMap fun
    | .fact _ field expected => some ⟨field, .text expected⟩
    | .scope _ _ _ => none

/-- The filter for the facts of a member: the name of the subject is that of the member. -/
def memberFilter (schema : Schema) (view : View) (member : String) :
    Except ViewFault FieldPredicate :=
  match view.subject? with
  | none => .error (.unsuitable view.name (view.scope.name ++ " views have no members"))
  | some index =>
    match (schema.dimensions[index]?).bind fun d => d.attributeIndex? nameAttribute with
    | some position => .ok ⟨.component index position, .text member⟩
    | none => .error (.unsuitable view.name "subject dimension has no name attribute")

/-! ## Running -/

/-- The plan of a view. -/
def View.plan (schema : Schema) (view : View) (member? : Option String) :
    Except ViewFault Plan := do
  let measures := Query.allMeasures schema
  if measures.isEmpty then
    .error (.unsuitable view.name "the dataset declares no measure dimension")
  else
    let ofMember ← match member? with
      | none => .ok []
      | some member => (memberFilter schema view member).map fun filter => [filter]
    .ok
      { drilldownNames := [view.breakdownName]
        drilldowns := [view.breakdown]
        cuts := []
        filters := factFilters view ++ ofMember
        slice := []
        measures := measures
        order := []
        page := 1
        pageSize? := none
        collection? := none }

namespace Store

/-- Runs a view with the given kind of number. -/
def viewWith {σ : Type} (arith : Arithmetic σ) (store : Store) (schema : Schema) (workers : Nat)
    (entity name : String) (dimension? member? : Option String) :
    Except ViewFault (ViewResult σ) :=
  match schema.view? entity name dimension? with
  | none => .error (.notFound entity name)
  | some view => do
    let plan ← view.plan schema member?
    let rows :=
      if scopeMatches schema view then
        groupRows arith plan.measures.length (groupRecords arith plan none workers store.toList)
      else []
    .ok
      { scope := view.scope
        name := view.name
        label := view.label
        breakdown := view.breakdownName
        measures := plan.measureNames
        rows := rows }

/-- Runs the view of a scope and a name; a dimension picks among views of that name, and a member
restricts the view to its facts. -/
def view (store : Store) (schema : Schema) (workers : Nat) (entity name : String)
    (dimension? member? : Option String) : Except ViewFault (ViewResult Float) :=
  store.viewWith .binary64 schema workers entity name dimension? member?

end Store

end FactCube
