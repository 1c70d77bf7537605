import FactCube.Cube.Aggregate

/-!
# Collecting facts and listing values

A query can put the facts it selects into a collection, which later queries can be restricted to.
The distinct values of a field are listed in ascending order, blanks left out.
-/

namespace FactCube.Store

/-- The ids of the records a plan selects. -/
def selectedIds (store : Store) (plan : Plan) (members? : Option (Std.TreeSet String)) :
    List String :=
  (store.toList.filter fun record =>
    isMember members? record.id && plan.selects record.contents).map Record.id

/-- Adds the facts a query selects to a collection and counts the new ones. -/
def collect (store : Store) (schema : Schema) (query : Query) (name : String) :
    Except QueryFault (Nat × Store) := do
  let plan ← query.plan schema
  let members? ← store.membersFor plan
  .ok (store.addAll name (store.selectedIds plan members?))

/-- The distinct values at a field that are not blank, ascending. -/
def distinctAt (store : Store) (field : Field) : List Value :=
  let values := store.toList.filterMap fun record => Plan.keyAt record.contents field
  (Std.TreeSet.ofList values Value.groupOrder).toList

/-- The distinct values at the field of a path. -/
def distinct (store : Store) (schema : Schema) (path : String) :
    Except QueryFault (List Value) := do
  let field ← Query.resolve schema path
  .ok (store.distinctAt field)

end FactCube.Store
