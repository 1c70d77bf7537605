import FactCube.Cube.Groups

/-!
# Aggregates

The answer to a query: a row for each group, ordered as asked and cut to a page, and a summary over
all groups. Without order keys the rows ascend by their keys, and rows that the order keys do not
tell apart keep that order.
-/

namespace FactCube

/-! ## Rows -/

/-- The group of some key values with the sums of the measures and the count of facts. -/
structure GroupRow (σ : Type) where
  keys : List Value
  totals : List σ
  count : Nat

/-- The rows of some groups, ascending by key. -/
def groupRows {σ : Type} (arith : Arithmetic σ) (measures : Nat) (groups : Groups σ) :
    List (GroupRow σ) :=
  groups.toList.map fun (keys, tally) => ⟨keys, arith.resize measures tally.sums, tally.count⟩

namespace GroupRow

/-- Compares optional values; a missing one comes first. -/
def compareOptions {α : Type} (compare : α → α → Ordering) : Option α → Option α → Ordering
  | some a, some b => compare a b
  | none, some _ => .lt
  | some _, none => .gt
  | none, none => .eq

/-- Compares two rows by one target. -/
def compareBy {σ : Type} (arith : Arithmetic σ) (a b : GroupRow σ) : OrderTarget → Ordering
  | .drilldown column => compareOptions Value.compare a.keys[column]? b.keys[column]?
  | .measure column => compareOptions arith.compare a.totals[column]? b.totals[column]?
  | .count => Ord.compare a.count b.count

/-- The comparison in a direction. -/
def directed (direction : Direction) (o : Ordering) : Ordering :=
  match direction with
  | .ascending => o
  | .descending => o.swap

/-- Compares two rows by the first order key that tells them apart. -/
def compare {σ : Type} (arith : Arithmetic σ) (a b : GroupRow σ) :
    List (OrderTarget × Direction) → Ordering
  | [] => .eq
  | (target, direction) :: order =>
    (directed direction (compareBy arith a b target)).then (compare arith a b order)

end GroupRow

/-- Orders rows; rows that compare as equal keep their order. -/
def orderRows {σ : Type} (arith : Arithmetic σ) (order : List (OrderTarget × Direction))
    (rows : List (GroupRow σ)) : List (GroupRow σ) :=
  rows.mergeSort fun a b => a.compare arith b order != .gt

/-! ## Pages -/

/-- The page of some rows; pages count from 1. -/
def pageOf {α : Type} (page pageSize : Nat) (rows : List α) : List α :=
  (rows.drop ((page - 1) * pageSize)).take pageSize

/-! ## Summaries -/

/-- What is said of all groups together: the totals by measure name, the counts of facts and groups,
and the page. -/
@[ext] structure Summary (σ : Type) where
  totals : List (String × σ)
  count : Nat
  groups : Nat
  page : Nat
  pages : Nat
  pageSize : Nat

/-- Puts a total into a list sorted by name; a total of the same name is replaced. -/
def insertTotal {σ : Type} (name : String) (total : σ) : List (String × σ) → List (String × σ)
  | [] => [(name, total)]
  | (other, old) :: rest =>
    match Ord.compare name other with
    | .lt => (name, total) :: (other, old) :: rest
    | .eq => (name, total) :: rest
    | .gt => (other, old) :: insertTotal name total rest

/-- The totals by name, sorted. -/
def totalsByName {σ : Type} (totals : List (String × σ)) : List (String × σ) :=
  totals.foldl (fun sorted (name, total) => insertTotal name total sorted) []

/-- The sums of all rows, added in their order. -/
def grandTotals {σ : Type} (arith : Arithmetic σ) (measures : Nat) (rows : List (GroupRow σ)) :
    List σ :=
  rows.foldl (fun totals row => arith.addSums totals row.totals) (arith.resize measures [])

/-! ## Answers -/

/-- The answer to a query. -/
@[ext] structure Aggregate (σ : Type) where
  drilldowns : List String
  measures : List String
  rows : List (GroupRow σ)
  summary : Summary σ

/-- The answer of a plan over the given groups. A page size of 0 counts as 1. -/
def Aggregate.ofGroups {σ : Type} (arith : Arithmetic σ) (plan : Plan) (groups : Groups σ) :
    Aggregate σ :=
  let measures := plan.measureNames
  let rows := groupRows arith measures.length groups
  let pageSize := Nat.max (plan.pageSize?.getD rows.length) 1
  { drilldowns := plan.drilldownNames
    measures := measures
    rows := pageOf plan.page pageSize (orderRows arith plan.order rows)
    summary :=
      { totals := totalsByName (measures.zip (grandTotals arith measures.length rows))
        count := rows.foldl (fun count row => count + row.count) 0
        groups := rows.length
        page := plan.page
        pages := ceilDiv rows.length pageSize
        pageSize := pageSize } }

namespace Store

/-- The members of the collection a plan names, if it names one. -/
def membersFor (store : Store) (plan : Plan) :
    Except QueryFault (Option (Std.TreeSet String)) :=
  match plan.collection? with
  | none => .ok none
  | some name =>
    match store.collection? name with
    | some members => .ok (some members)
    | none => .error (.unknownCollection name)

/-- Answers a query with the given kind of number. -/
def aggregateWith {σ : Type} (arith : Arithmetic σ) (store : Store) (schema : Schema)
    (workers : Nat) (query : Query) : Except QueryFault (Aggregate σ) := do
  let plan ← query.plan schema
  let members? ← store.membersFor plan
  .ok (.ofGroups arith plan (groupRecords arith plan members? workers store.toList))

/-- Answers a query. -/
def aggregate (store : Store) (schema : Schema) (workers : Nat) (query : Query) :
    Except QueryFault (Aggregate Float) :=
  store.aggregateWith .binary64 schema workers query

end Store

end FactCube
