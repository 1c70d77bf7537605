import FactCube.Cube.View
import FactCube.Table.Layout
import FactCube.Taxonomy.Index

/-!
# Reports

The answers of queries, views and taxonomies as text tables and as JSON. In tables amounts have two
places; in JSON they are exact.
-/

namespace FactCube

/-! ## Tables -/

/-- The cells of a row: its keys, its amounts and its count. -/
def GroupRow.cells (row : GroupRow Float) : List String :=
  row.keys.map Value.display ++ row.totals.map Decimal.amount ++ [Decimal.integerText row.count]

/-- The headers over the rows of some keys and measures. -/
def groupHeaders (keys measures : List String) : List String := keys ++ measures ++ ["num_entries"]

/-- The table of a view. -/
def ViewResult.table (r : ViewResult Float) : String :=
  Table.render (groupHeaders [r.breakdown] r.measures) (r.rows.map GroupRow.cells)

/-- The line under the table of an aggregate. -/
def Summary.line (s : Summary Float) : String :=
  let totals := Text.joined ", " (s.totals.map fun (name, total) =>
    name ++ "=" ++ Decimal.amount total)
  let count := Decimal.integerText s.count
  let groups := Decimal.integerText s.groups
  let page := Decimal.integerText s.page
  let pages := Decimal.integerText s.pages
  let pageSize := Decimal.integerText s.pageSize
  s!"{totals}; {count} entr(ies) in {groups} group(s); page {page}/{pages} ({pageSize} per page)"

/-- The table of an aggregate and, after an empty line, its summary. -/
def Aggregate.table (a : Aggregate Float) : String :=
  Table.render (groupHeaders a.drilldowns a.measures) (a.rows.map GroupRow.cells) ++
    "\n" ++ a.summary.line ++ "\n"

/-- The table of classifier entries. -/
def classifierTable (entries : List ClassifierEntry) : String :=
  Table.render ["name", "label", "description", "change_date"]
    (entries.map fun e => [e.name, e.label, e.description, e.changeDate])

/-! ## JSON -/

/-- A list of texts as JSON. -/
def textsJson (texts : List String) : Json := .array (texts.map .string)

/-- A row as JSON. -/
def GroupRow.toJson (row : GroupRow Float) : Json :=
  .object
    [("keys", .array (row.keys.map Value.toJson)), ("totals", .array (row.totals.map .float)),
     ("num_entries", .integer row.count)]

/-- A summary as JSON. -/
def Summary.toJson (s : Summary Float) : Json :=
  .object
    [("totals", .object (s.totals.map fun (name, total) => (name, .float total))),
     ("num_entries", .integer s.count), ("num_drilldowns", .integer s.groups),
     ("page", .integer s.page), ("pages", .integer s.pages), ("pagesize", .integer s.pageSize)]

/-- An aggregate as JSON. -/
def Aggregate.toJson (a : Aggregate Float) : Json :=
  .object
    [("drilldowns", textsJson a.drilldowns), ("measures", textsJson a.measures),
     ("rows", .array (a.rows.map GroupRow.toJson)), ("summary", a.summary.toJson)]

/-- The answer of a view as JSON. -/
def ViewResult.toJson (r : ViewResult Float) : Json :=
  .object
    [("scope", .string r.scope.name), ("name", .string r.name), ("label", .string r.label),
     ("breakdown", .string r.breakdown), ("measures", textsJson r.measures),
     ("rows", .array (r.rows.map GroupRow.toJson))]

/-! ## Facts -/

/-- The facts of a store, each as a JSON object on a line of its own. -/
def Store.jsonLines (store : Store) (schema : Schema) : String :=
  String.join (store.toList.map fun record => (record.toJson schema).compact ++ "\n")

end FactCube
