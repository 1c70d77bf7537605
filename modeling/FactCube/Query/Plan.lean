import FactCube.Fact.Record
import FactCube.Query.Condition
import FactCube.Value.Reader

/-!
# Queries and plans

A query names fields by their paths. Against a schema it becomes a plan, in which every path is a
field and every literal a value of that field's type.

A record is selected by a plan if it passes all filters, if for every cut field its value is one of
those the field is cut to, and if the slice is empty or one of its groups has all conditions true.
-/

namespace FactCube

/-! ## Queries -/

/-- A query: fields to group by, restrictions, measures to sum (all of them if none is named), the
order of the rows, and the page, counted from 1. -/
structure Query where
  drilldowns : List String
  cuts : List Cut
  slice : List (List Condition)
  measures : List String
  order : List OrderKey
  page : Nat
  pageSize? : Option Nat
  collection? : Option String
deriving DecidableEq

/-- The query for the sum of all facts. -/
def Query.all : Query := ⟨[], [], [], [], [], 1, none, none⟩

/-- Why a query has no answer. -/
inductive QueryFault
  | unknownField (path : String)
  | unknownMeasure (name : String)
  | malformed (text : String)
  | invalidLiteral (path : String) (cause : ValueFault)
  | unknownCollection (name : String)
deriving DecidableEq

/-- The wording of a fault. -/
def QueryFault.message : QueryFault → String
  | .unknownField path => s!"unknown field '{path}'"
  | .unknownMeasure name => s!"unknown measure '{name}'"
  | .malformed text => s!"invalid condition '{text}'"
  | .invalidLiteral path cause => s!"invalid literal for '{path}': " ++ cause.message
  | .unknownCollection name => s!"unknown collection '{name}'"

/-- The wording of a fault and of the faults behind it. -/
def QueryFault.parts (f : QueryFault) : List String :=
  match f with
  | .invalidLiteral _ cause => [f.message, cause.message]
  | _ => [f.message]

/-- The fault of a text that cannot be read. -/
def MalformedText.toFault (m : MalformedText) : QueryFault := .malformed m.text

/-! ## Plans -/

/-- What the value of a field has to satisfy: a comparison with a literal, or an exact text. -/
inductive Predicate
  | compare (operator : Operator) (literal : Value)
  | text (expected : String)

/-- A predicate on a field. -/
structure FieldPredicate where
  field : Field
  predicate : Predicate

/-- What rows are ordered by: a key column, a measure column or the count of facts. -/
inductive OrderTarget
  | drilldown (column : Nat)
  | measure (column : Nat)
  | count
deriving DecidableEq, Repr

/-- A query resolved against a schema. -/
structure Plan where
  drilldownNames : List String
  drilldowns : List Field
  cuts : List (Field × List Value)
  filters : List FieldPredicate
  slice : List (List FieldPredicate)
  measures : List (Nat × String)
  order : List (OrderTarget × Direction)
  page : Nat
  pageSize? : Option Nat
  collection? : Option String

/-! ## Resolution -/

namespace Query

/-- The field of a path. -/
def resolve (schema : Schema) (path : String) : Except QueryFault Field :=
  match schema.resolve? path with
  | some field => .ok field
  | none => .error (.unknownField path)

/-- A literal as a value of a field's type. -/
def literalFor (schema : Schema) (path : String) (field : Field) (text : String) :
    Except QueryFault Value :=
  match Value.ofText (schema.typeOf field) text with
  | .ok value => .ok value
  | .error cause => .error (.invalidLiteral path cause)

/-- Adds a value to those a field is cut to; a field that was not cut before comes last. -/
def addCut (field : Field) (value : Value) : List (Field × List Value) → List (Field × List Value)
  | [] => [(field, [value])]
  | (other, values) :: rest =>
    if other == field then (other, values ++ [value]) :: rest
    else (other, values) :: addCut field value rest

/-- The cuts by field, in the order in which the fields first appear. -/
def planCuts (schema : Schema) :
    List (Field × List Value) → List Cut → Except QueryFault (List (Field × List Value))
  | planned, [] => .ok planned
  | planned, cut :: cuts => do
    let field ← resolve schema cut.field
    let value ← literalFor schema cut.field field cut.value
    planCuts schema (addCut field value planned) cuts

/-- A condition on a field. -/
def planCondition (schema : Schema) (c : Condition) : Except QueryFault FieldPredicate := do
  let field ← resolve schema c.field
  let literal ← literalFor schema c.field field c.literal
  .ok ⟨field, .compare c.operator literal⟩

/-- The measure of a name. -/
def planMeasure (schema : Schema) (name : String) : Except QueryFault (Nat × String) :=
  match schema.measures.find? fun (_, d) => d.name == name with
  | some (index, d) => .ok (index, d.name)
  | none => .error (.unknownMeasure name)

/-- All measures of a schema. -/
def allMeasures (schema : Schema) : List (Nat × String) :=
  schema.measures.map fun (index, d) => (index, d.name)

/-- The measures a query asks for. -/
def planMeasures (schema : Schema) (names : List String) :
    Except QueryFault (List (Nat × String)) :=
  if names.isEmpty then .ok (allMeasures schema) else names.mapM (planMeasure schema)

/-- What an order key names: a drilldown, else a measure, else the count. -/
def planOrder (drilldowns : List String) (measures : List (Nat × String)) (key : OrderKey) :
    Except QueryFault (OrderTarget × Direction) :=
  match drilldowns.findIdx? fun d => d == key.field with
  | some column => .ok (.drilldown column, key.direction)
  | none =>
    match measures.findIdx? fun m => m.2 == key.field with
    | some column => .ok (.measure column, key.direction)
    | none =>
      if key.field == "num_entries" then .ok (.count, key.direction)
      else .error (.unknownField key.field)

/-- The plan of a query. Page 0 is page 1. -/
def plan (schema : Schema) (query : Query) : Except QueryFault Plan := do
  let drilldowns ← query.drilldowns.mapM (resolve schema)
  let cuts ← planCuts schema [] query.cuts
  let slice ← query.slice.mapM fun group => group.mapM (planCondition schema)
  let measures ← planMeasures schema query.measures
  let order ← query.order.mapM (planOrder query.drilldowns measures)
  .ok
    { drilldownNames := query.drilldowns
      drilldowns := drilldowns
      cuts := cuts
      filters := []
      slice := slice
      measures := measures
      order := order
      page := Nat.max query.page 1
      pageSize? := query.pageSize?
      collection? := query.collection? }

end Query

/-! ## Selection -/

/-- Whether a value satisfies a predicate. -/
def Predicate.accepts (p : Predicate) (value : Value) : Bool :=
  match p with
  | .compare operator literal => operator.accepts (value.compare literal)
  | .text expected => value.display == expected

/-- Whether a record has a value at the field that satisfies the predicate. -/
def FieldPredicate.accepts (p : FieldPredicate) (contents : Contents) : Bool :=
  match valueAt contents p.field with
  | some value => p.predicate.accepts value
  | none => false

namespace Plan

/-- Whether the value of a field is one of those it is cut to. -/
def acceptsCut (contents : Contents) (cut : Field × List Value) : Bool :=
  match valueAt contents cut.1 with
  | some value => cut.2.any value.same
  | none => false

/-- Whether a plan selects a record of some contents. -/
def selects (plan : Plan) (contents : Contents) : Bool :=
  (plan.filters.all fun p => p.accepts contents) &&
    plan.cuts.all (acceptsCut contents) &&
    (plan.slice.isEmpty || plan.slice.any fun group => group.all fun p => p.accepts contents)

/-- The value of a field unless it is blank. -/
def keyAt (contents : Contents) (field : Field) : Option Value :=
  (valueAt contents field).filter fun value => !value.isBlank

/-- The values a record is grouped by, if none of them is blank. -/
def groupKey (plan : Plan) (contents : Contents) : Option (List Value) :=
  plan.drilldowns.mapM (keyAt contents)

/-- The names of the measures. -/
def measureNames (plan : Plan) : List String := plan.measures.map Prod.snd

end Plan

end FactCube
