import FactCube.Cube.Collecting
import FactCube.Proofs.Ranges
import FactCube.Proofs.Taxonomies
import FactCube.Proofs.ViewQueries
import FactCube.Taxonomy.Index

/-!
# Checked runs

Mapping, planning and answering look things up by position. A definition that looks up a position
out of range goes on with a name that is empty or a value that is missing, which says nothing of
whether this can happen. So here each of them is given once more as a checked run, which breaks off
where a position is out of range, a divisor is zero, a difference is negative, a number is too large
for a machine word, or rows are to be sorted by comparisons that are not those of an order. On a
validated schema and its facts no run is broken off, and each returns what the definition says.

Results:
* `returns_mapRow`: a row is mapped.
* `returns_plan`: a query is planned.
* `orderRows_eq`: rows are put into order.
* `returns_aggregate`, `returns_view`, `returns_collect`, `returns_distinct`, `taxonomyIndex_eq`:
  every request is answered.
* `Document.isAnswered_of_validate`: nothing that is asked of a validated schema and a store of its
  facts is broken off.
-/

namespace FactCube

/-! ## Runs that can be broken off -/

/-- A run that can be broken off, and that gives a value or a fault if it is not. -/
abbrev Checked (ε α : Type) := ExceptT ε Option α

namespace Checked

/-- Whether a run is not broken off and has an outcome. -/
def Returns {ε α : Type} (run : Checked ε α) (outcome : Except ε α) : Prop :=
  ExceptT.run run = some outcome

section Returns

variable {ε α β : Type}

theorem returns_pure (a : α) : Returns (pure a : Checked ε α) (.ok a) := rfl

theorem returns_throw (e : ε) : Returns (throw e : Checked ε α) (.error e) := rfl

/-- An outcome is not broken off. -/
theorem returns_lift (outcome : Except ε α) : Returns (liftM outcome : Checked ε α) outcome := rfl

/-- A look-up that finds something is not broken off. -/
theorem returns_of_eq_some {found : Option α} {a : α} (h : found = some a) :
    Returns (liftM found : Checked ε α) (.ok a) := by
  rw [h]
  rfl

/-- Steps one after the other. -/
theorem Returns.bind {run : Checked ε α} {outcome : Except ε α} {next : α → Checked ε β}
    {next' : α → Except ε β} (h : Returns run outcome)
    (hnext : ∀ a, outcome = .ok a → Returns (next a) (next' a)) :
    Returns (run >>= next) (outcome >>= next') := by
  rw [Returns] at h ⊢
  rw [ExceptT.run_bind, h]
  cases outcome with
  | error e => rfl
  | ok a => exact hnext a rfl

/-- A look-up that finds something, and what follows. -/
theorem returns_bind_of_eq_some {found : Option α} {a : α} (h : found = some a)
    {next : α → Checked ε β} {outcome : Except ε β} (hnext : Returns (next a) outcome) :
    Returns ((liftM found : Checked ε α) >>= next) outcome := by
  have hbind : Returns ((liftM found : Checked ε α) >>= next)
      ((.ok a : Except ε α) >>= fun _ => outcome) := by
    refine (returns_of_eq_some h).bind fun _ heq => ?_
    cases heq
    exact hnext
  exact hbind

/-- Steps for the items of a list. -/
theorem returns_mapM {step : α → Checked ε β} {step' : α → Except ε β} {items : List α}
    (h : ∀ a ∈ items, Returns (step a) (step' a)) :
    Returns (items.mapM step) (items.mapM step') := by
  induction items with
  | nil => exact returns_pure []
  | cons a items ih =>
    rw [List.forall_mem_cons] at h
    rw [List.mapM_cons, List.mapM_cons]
    exact h.1.bind fun _ _ => (ih h.2).bind fun _ _ => returns_pure _

/-- A fold whose steps are not broken off. -/
theorem foldlM_eq_some {step : β → α → Option β} {step' : β → α → β} {items : List α}
    (h : ∀ a ∈ items, ∀ b, step b a = some (step' b a)) (b : β) :
    items.foldlM step b = some (items.foldl step' b) := by
  induction items generalizing b with
  | nil => rfl
  | cons a items ih =>
    rw [List.forall_mem_cons] at h
    rw [List.foldlM_cons, h.1, List.foldl_cons]
    exact ih h.2 _

/-- Tests that are not broken off. -/
theorem allM_eq_some {test : α → Option Bool} {test' : α → Bool} {items : List α}
    (h : ∀ a ∈ items, test a = some (test' a)) :
    items.allM test = some (items.all test') := by
  induction items with
  | nil => rfl
  | cons a items ih =>
    rw [List.forall_mem_cons] at h
    rw [List.allM, h.1, List.all_cons]
    cases test' a with
    | false => rfl
    | true => exact ih h.2

end Returns

/-! ## Fields -/

section Fields

variable {schema : Schema}

/-- The field a path names. -/
def resolve? (schema : Schema) (path : String) : Option (Option Field) :=
  match schema.dimensionIndex? (Schema.splitPath path).1 with
  | none => some none
  | some index => do
    let d ← schema.dimensions[index]?
    some (d.fieldOf? index (Schema.splitPath path).2)

/-- The path of a field. -/
def pathOf (schema : Schema) (field : Field) : Option String := do
  let d ← schema.dimensions[field.dimension]?
  match field with
  | .scalar _ => some d.name
  | .component _ position => do
    let a ← d.attributes[position]?
    some (d.name ++ "." ++ a.name)
  | .datePart _ part => some (d.name ++ "." ++ part.name)

/-- The datatype of the values of a field. -/
def typeOf (schema : Schema) (field : Field) : Option DataType := do
  let d ← schema.dimensions[field.dimension]?
  match field with
  | .scalar _ => some (d.scalarType?.getD .string)
  | .component _ position => do
    let a ← d.attributes[position]?
    some a.datatype
  | .datePart _ _ => some .string

/-- A dimension that is found by its name is found at its position. -/
theorem resolve?_eq (schema : Schema) (path : String) :
    resolve? schema path = some (schema.resolve? path) := by
  rw [resolve?, Schema.resolve?_eq]
  cases hindex : schema.dimensionIndex? (Schema.splitPath path).1 with
  | none => rfl
  | some index =>
    have hlt := (List.findIdx?_eq_some_iff_getElem.1 hindex).1
    simp only [List.getElem?_eq_getElem hlt, Option.bind_some]
    rfl

theorem pathOf_eq {field : Field} (h : schema.HasField field) :
    pathOf schema field = some (schema.pathOf field) := by
  cases h with
  | scalar hd _ => simp [pathOf, Schema.pathOf, Field.dimension, hd]
  | component hd hcontent hlt =>
    simp [pathOf, Schema.pathOf, Schema.attributeName, Field.dimension, hd, Dimension.attributes,
      hcontent, hlt]
  | datePart hd _ => simp [pathOf, Schema.pathOf, Field.dimension, hd]

/-- Recipients have one attribute only. -/
example : pathOf Sample.paymentsSchema (.component 0 1) = none := rfl

theorem typeOf_eq {field : Field} (h : schema.HasField field) :
    typeOf schema field = some (schema.typeOf field) := by
  cases h with
  | scalar hd _ => simp [typeOf, Schema.typeOf, Field.dimension, hd]
  | component hd hcontent hlt =>
    simp [typeOf, Schema.typeOf, Field.dimension, hd, Dimension.attributes, hcontent, hlt]
  | datePart hd _ => simp [typeOf, Schema.typeOf, Field.dimension, hd]

end Fields

/-! ## Rows of a source -/

section Mapping

variable {schema : Schema}

/-- Fills the slots one after the other. -/
def fillSlots (row : Row) : Contents → List MappedField → Checked RowFault Contents
  | contents, [] => pure contents
  | contents, field :: fields => do
    let value ← slotValue row field
    let entry ← (contents[field.target.dimension]? : Option Entry)
    fillSlots row (contents.set field.target.dimension (entry.fill value)) fields

/-- The fact of a row. -/
def mapRow (schema : Schema) (row : Row) : Checked RowFault Record := do
  let contents ← fillSlots row (emptyContents schema) schema.fields
  pure (.ofContents schema contents)

theorem returns_fillSlots {row : Row} {contents : Contents} {fields : List MappedField}
    (h : ∀ field ∈ fields, field.target.dimension < contents.length) :
    Returns (fillSlots row contents fields) (FactCube.fillSlots row contents fields) := by
  induction fields generalizing contents with
  | nil => exact returns_pure contents
  | cons field fields ih =>
    rw [List.forall_mem_cons] at h
    have hstep : FactCube.fillSlots row contents (field :: fields) =
        slotValue row field >>= fun value => FactCube.fillSlots row
          (contents.set field.target.dimension
            (contents[field.target.dimension].fill value)) fields := by
      rw [FactCube.fillSlots]
      cases slotValue row field with
      | error fault => rfl
      | ok value =>
        simp only [List.modify_eq_set_getElem?, List.getElem?_eq_getElem h.1]
        rfl
    rw [fillSlots, hstep]
    refine (returns_lift _).bind fun value _ => ?_
    refine returns_bind_of_eq_some (List.getElem?_eq_getElem h.1) (ih fun field hfield => ?_)
    rw [List.length_set]
    exact h.2 field hfield

/-- A row of a source is mapped. -/
theorem returns_mapRow (hschema : schema.WellFormed) (row : Row) :
    Returns (mapRow schema row) (FactCube.mapRow schema row) := by
  have hmap : FactCube.mapRow schema row =
      FactCube.fillSlots row (emptyContents schema) schema.fields >>= fun contents =>
        .ok (.ofContents schema contents) := rfl
  rw [mapRow, hmap]
  refine (returns_fillSlots fun slot hslot => ?_).bind fun contents _ => returns_pure _
  rw [emptyContents, List.length_map]
  exact (Schema.hasField_of_mem_fields hschema hslot).dimension_lt

end Mapping

/-! ## Queries -/

section Planning

variable {schema : Schema}

/-- The field of a path. -/
def resolve (schema : Schema) (path : String) : Checked QueryFault Field := do
  match ← resolve? schema path with
  | some field => pure field
  | none => throw (.unknownField path)

/-- A literal as a value of a field's type. -/
def literalFor (schema : Schema) (path : String) (field : Field) (text : String) :
    Checked QueryFault Value := do
  let datatype ← typeOf schema field
  match Value.ofText datatype text with
  | .ok value => pure value
  | .error cause => throw (.invalidLiteral path cause)

/-- The cuts by field, in the order in which the fields first appear. -/
def planCuts (schema : Schema) :
    List (Field × List Value) → List Cut → Checked QueryFault (List (Field × List Value))
  | planned, [] => pure planned
  | planned, cut :: cuts => do
    let field ← resolve schema cut.field
    let value ← literalFor schema cut.field field cut.value
    planCuts schema (Query.addCut field value planned) cuts

/-- A condition on a field. -/
def planCondition (schema : Schema) (c : Condition) : Checked QueryFault FieldPredicate := do
  let field ← resolve schema c.field
  let literal ← literalFor schema c.field field c.literal
  pure ⟨field, .compare c.operator literal⟩

/-- The plan of a query. -/
def plan (schema : Schema) (query : Query) : Checked QueryFault Plan := do
  let drilldowns ← query.drilldowns.mapM (resolve schema)
  let cuts ← planCuts schema [] query.cuts
  let slice ← query.slice.mapM fun group => group.mapM (planCondition schema)
  let measures ← Query.planMeasures schema query.measures
  let order ← query.order.mapM fun key => liftM (Query.planOrder query.drilldowns measures key)
  pure
    { drilldownNames := query.drilldowns
      drilldowns := drilldowns
      cuts := cuts
      filters := []
      slice := slice
      measures := measures
      order := order
      page := Nat.max query.page 1
      pageSize? := query.pageSize?
      collection? := query.collection? }

theorem returns_resolve (schema : Schema) (path : String) :
    Returns (resolve schema path) (Query.resolve schema path) := by
  rw [resolve, Query.resolve]
  refine returns_bind_of_eq_some (resolve?_eq schema path) ?_
  cases schema.resolve? path with
  | none => exact returns_throw _
  | some field => exact returns_pure field

theorem returns_literalFor {field : Field} (h : schema.HasField field) (path text : String) :
    Returns (literalFor schema path field text) (Query.literalFor schema path field text) := by
  rw [literalFor, Query.literalFor]
  refine returns_bind_of_eq_some (typeOf_eq h) ?_
  cases Value.ofText (schema.typeOf field) text with
  | error cause => exact returns_throw _
  | ok value => exact returns_pure value

theorem returns_planCuts (planned : List (Field × List Value)) (cuts : List Cut) :
    Returns (planCuts schema planned cuts) (Query.planCuts schema planned cuts) := by
  induction cuts generalizing planned with
  | nil => exact returns_pure planned
  | cons cut cuts ih =>
    exact (returns_resolve schema cut.field).bind fun field hfield =>
      (returns_literalFor (Query.hasField_of_resolve hfield) _ _).bind fun _ _ => ih _

theorem returns_planCondition (c : Condition) :
    Returns (planCondition schema c) (Query.planCondition schema c) :=
  (returns_resolve schema c.field).bind fun _ hfield =>
    (returns_literalFor (Query.hasField_of_resolve hfield) _ _).bind fun _ _ => returns_pure _

/-- A query is planned. -/
theorem returns_plan (schema : Schema) (query : Query) :
    Returns (plan schema query) (query.plan schema) :=
  (returns_mapM fun path _ => returns_resolve schema path).bind fun _ _ =>
    (returns_planCuts [] query.cuts).bind fun _ _ =>
      (returns_mapM fun _ _ => returns_mapM fun c _ => returns_planCondition c).bind fun _ _ =>
        (returns_lift _).bind fun _ _ =>
          (returns_mapM fun _ _ => returns_lift _).bind fun _ _ => returns_pure _

end Planning

/-! ## Groups and their order -/

section Ordering

variable {σ : Type} {arith : Arithmetic σ}

/-- The quotient rounded up. -/
def ceilDiv (n d : Nat) : Option Nat := if d = 0 then none else some (FactCube.ceilDiv n d)

/-- The pieces of a length that make up some items. -/
def chunks {α : Type} (length : Nat) (items : List α) : Option (List (List α)) :=
  if length = 0 then none else some (FactCube.chunks length items.length items)

/-- The groups of the records that a plan selects. There is at least one worker. -/
def groupRecords (arith : Arithmetic σ) (plan : Plan) (members? : Option (Std.TreeSet String))
    (workers : Nat) (records : List Record) : Option (Groups σ) :=
  let contributions := List.filterMap (contribution? arith plan members?)
  let workers := Nat.max workers 1
  if workers = 1 ∨ records.length < 2 * leastPiece then
    some (.ofList arith (contributions records))
  else do
    let even ← ceilDiv records.length workers
    let pieces ← chunks (Nat.max even leastPiece) records
    some (.ofPieces arith (pieces.map contributions))

/-- Compares two rows by one target. -/
def compareBy (arith : Arithmetic σ) (a b : GroupRow σ) : OrderTarget → Option Ordering
  | .drilldown column => do
    let v ← a.keys[column]?
    let w ← b.keys[column]?
    some (v.compare w)
  | .measure column => do
    let x ← a.totals[column]?
    let y ← b.totals[column]?
    some (arith.compare x y)
  | .count => some (Ord.compare a.count b.count)

/-- Compares two rows by the first order key that tells them apart. -/
def compareRows (arith : Arithmetic σ) (a b : GroupRow σ) :
    List (OrderTarget × Direction) → Option Ordering
  | [] => some .eq
  | (target, direction) :: order => do
    match GroupRow.directed direction (← compareBy arith a b target) with
    | .eq => compareRows arith a b order
    | told => some told

/-- Whether no comparison of some items is broken off, and all of them together are those of an
order. A sort may be broken off if they are not. -/
def IsOrder {α : Type} (compare : α → α → Option Ordering) (items : List α) : Prop :=
  (∀ a ∈ items, ∀ b ∈ items,
    (compare a b).isSome = true ∧ compare b a = (compare a b).map Ordering.swap) ∧
  ∀ a ∈ items, ∀ b ∈ items, ∀ c ∈ items,
    compare a b ≠ some .gt → compare b c ≠ some .gt → compare a c ≠ some .gt

instance {α : Type} (compare : α → α → Option Ordering) (items : List α) :
    Decidable (IsOrder compare items) :=
  inferInstanceAs (Decidable (_ ∧ _))

/-- Orders rows; rows that compare as equal keep their order. Without order keys there is nothing to
compare. -/
def orderRows (arith : Arithmetic σ) (order : List (OrderTarget × Direction))
    (rows : List (GroupRow σ)) : Option (List (GroupRow σ)) :=
  if order.isEmpty then some rows
  else if IsOrder (fun a b => compareRows arith a b order) rows then
    some (rows.mergeSort fun a b => compareRows arith a b order != some .gt)
  else none

/-- No worker and no piece is left without records. -/
theorem groupRecords_eq (plan : Plan) (members? : Option (Std.TreeSet String)) (workers : Nat)
    (records : List Record) :
    groupRecords arith plan members? workers records =
      some (FactCube.groupRecords arith plan members? workers records) := by
  have hone : Nat.max workers 1 = 1 ↔ workers ≤ 1 := max_eq_right_iff
  rw [groupRecords, FactCube.groupRecords]
  simp only [hone]
  split
  · rfl
  · rename_i hmany
    have hworkers : Nat.max workers 1 = workers := Nat.max_eq_left (by omega)
    have hpiece : Nat.max (FactCube.ceilDiv records.length workers) leastPiece ≠ 0 :=
      Nat.ne_of_gt (Nat.lt_of_lt_of_le (by decide) (Nat.le_max_right _ leastPiece))
    rw [hworkers, ceilDiv, if_neg (by omega), Option.bind_eq_bind, Option.bind_some, chunks,
      if_neg hpiece]
    rfl

/-- Where both rows have the cell of a target, comparing them by it is not broken off. -/
theorem compareBy_eq {a b : GroupRow σ} {target : OrderTarget}
    (ha : ∃ cell, a.cellAt? target = some cell) (hb : ∃ cell, b.cellAt? target = some cell) :
    compareBy arith a b target = some (a.compareBy arith b target) := by
  obtain ⟨x, hx⟩ := ha
  obtain ⟨y, hy⟩ := hb
  cases target with
  | drilldown column =>
    obtain ⟨v, hv, -⟩ := Option.map_eq_some_iff.1 hx
    obtain ⟨w, hw, -⟩ := Option.map_eq_some_iff.1 hy
    rw [compareBy, GroupRow.compareBy, hv, hw]
    rfl
  | measure column =>
    obtain ⟨v, hv, -⟩ := Option.map_eq_some_iff.1 hx
    obtain ⟨w, hw, -⟩ := Option.map_eq_some_iff.1 hy
    rw [compareBy, GroupRow.compareBy, hv, hw]
    rfl
  | count => rfl

/-- Where both rows have the cells of all order keys, comparing them is not broken off. -/
theorem compareRows_eq {a b : GroupRow σ} {order : List (OrderTarget × Direction)}
    (ha : ∀ key ∈ order, ∃ cell, a.cellAt? key.1 = some cell)
    (hb : ∀ key ∈ order, ∃ cell, b.cellAt? key.1 = some cell) :
    compareRows arith a b order = some (a.compare arith b order) := by
  induction order with
  | nil => rfl
  | cons key order ih =>
    obtain ⟨target, direction⟩ := key
    rw [List.forall_mem_cons] at ha hb
    rw [compareRows, GroupRow.compare, compareBy_eq ha.1 hb.1, Option.bind_eq_bind, Option.bind_some,
      ih ha.2 hb.2]
    cases GroupRow.directed direction (a.compareBy arith b target) <;> rfl

/-- Rows of one shape that have the cells of all order keys are put into order. -/
theorem orderRows_eq [Std.TransCmp arith.compare] {types : List DataType}
    {order : List (OrderTarget × Direction)} {rows : List (GroupRow σ)}
    (htypes : ∀ row ∈ rows, row.HasTypes types)
    (hcells : ∀ row ∈ rows, ∀ key ∈ order, ∃ cell, row.cellAt? key.1 = some cell) :
    orderRows arith order rows = some (FactCube.orderRows arith order rows) := by
  have hcompare : ∀ a ∈ rows, ∀ b ∈ rows,
      compareRows arith a b order = some (a.compare arith b order) :=
    fun a ha b hb => compareRows_eq (hcells a ha) (hcells b hb)
  have hlawful := @GroupRow.transCmp_compare _ arith types _ order
  rw [orderRows]
  split
  · rename_i hempty
    rw [List.isEmpty_iff.1 hempty, orderRows_nil]
  -- the comparison is lawful among rows whose keys have the same types
  have horder : IsOrder (fun a b => compareRows arith a b order) rows := by
    constructor
    · intro a ha b hb
      simp only [hcompare a ha b hb, hcompare b hb a ha, Option.isSome_some, Option.map_some,
        true_and, Option.some.injEq]
      exact hlawful.eq_swap (a := ⟨b, htypes b hb⟩) (b := ⟨a, htypes a ha⟩)
    · intro a ha b hb c hc
      simp only [hcompare a ha b hb, hcompare b hb c hc, hcompare a ha c hc, ne_eq,
        Option.some.injEq, ← Ordering.isLE_iff_ne_gt]
      exact hlawful.isLE_trans (a := ⟨a, htypes a ha⟩) (b := ⟨b, htypes b hb⟩)
        (c := ⟨c, htypes c hc⟩)
  rw [if_pos horder, FactCube.orderRows]
  -- sorting compares no other rows than these
  have hsort := List.map_mergeSort (f := id) (l := rows)
    (r := fun a b => compareRows arith a b order != some .gt)
    (s := fun a b => a.compare arith b order != .gt) fun a ha b hb => by
      rw [hcompare a ha b hb]
      rfl
  rw [List.map_id, List.map_id] at hsort
  rw [hsort]

end Ordering

/-! ## Requests -/

section Requests

variable {σ : Type} {arith : Arithmetic σ} {schema : Schema} {store : Store}

/-- A number as a machine word. -/
def word (n : Nat) : Option UInt64 := if n < UInt64.size then some (.ofNat n) else none

/-- The answer of a plan over the given groups, for a page of a size. -/
def answer (arith : Arithmetic σ) (plan : Plan) (groups : Groups σ) (page : UInt64)
    (pageSize? : Option UInt64) : Option (Aggregate σ) := do
  let measures := plan.measureNames
  let rows := groupRows arith measures.length groups
  let ordered ← orderRows arith plan.order rows
  let found ← word ordered.length
  let count ← word (rows.foldl (fun count row => count + row.count) 0)
  let window ← window? page pageSize? found
  some
    { drilldowns := plan.drilldownNames
      measures := measures
      rows := (ordered.drop window.skipped.toNat).take window.pageSize.toNat
      summary :=
        { totals := totalsByName (measures.zip (grandTotals arith measures.length rows))
          count := count.toNat
          groups := found.toNat
          page := window.page.toNat
          pages := window.pages.toNat
          pageSize := window.pageSize.toNat } }

/-- Answers a query for a page of a size. -/
def aggregate (arith : Arithmetic σ) (store : Store) (schema : Schema) (workers : Nat)
    (query : Query) (page : UInt64) (pageSize? : Option UInt64) :
    Checked QueryFault (Aggregate σ) := do
  let plan ← plan schema query
  let members? ← store.membersFor plan
  let groups ← groupRecords arith plan members? workers store.toList
  liftM (answer arith plan groups page pageSize?)

/-- Adds the facts a query selects to a collection and counts the new ones. -/
def collect (store : Store) (schema : Schema) (query : Query) (name : String) :
    Checked QueryFault (Nat × Store) := do
  let plan ← plan schema query
  let members? ← store.membersFor plan
  pure (store.addAll name (store.selectedIds plan members?))

/-- The distinct values at the field of a path. -/
def distinct (store : Store) (schema : Schema) (path : String) :
    Checked QueryFault (List Value) := do
  let field ← resolve schema path
  pure (store.distinctAt field)

/-- The filter for the facts of a member. -/
def memberFilter (schema : Schema) (view : View) (member : String) :
    Checked ViewFault FieldPredicate :=
  match view.subject? with
  | none => throw (.unsuitable view.name (view.scope.name ++ " views have no members"))
  | some index => do
    let d ← (schema.dimensions[index]? : Option Dimension)
    match d.attributeIndex? nameAttribute with
    | some position => pure ⟨.component index position, .text member⟩
    | none => throw (.unsuitable view.name "subject dimension has no name attribute")

/-- The filters for the facts of a member, if there is one. -/
def memberFilters (schema : Schema) (view : View) :
    Option String → Checked ViewFault (List FieldPredicate)
  | none => pure []
  | some member => do
    let filter ← memberFilter schema view member
    pure [filter]

/-- The plan of a view. -/
def viewPlan (schema : Schema) (view : View) (member? : Option String) :
    Checked ViewFault Plan :=
  if (Query.allMeasures schema).isEmpty then
    throw (.unsuitable view.name "the dataset declares no measure dimension")
  else do
    let ofMember ← memberFilters schema view member?
    pure { view.planOf schema [] with filters := factFilters view ++ ofMember }

/-- The text of a property of what a view is about. -/
def propertyText? (schema : Schema) (view : View) : ScopeProperty → Option (Option String)
  | .datasetName => some (some schema.dataset.name)
  | .datasetLabel => some (some schema.dataset.label)
  | .datasetCurrency => some (some schema.dataset.currency)
  | .taxonomy =>
    match view.subject? with
    | none => some none
    | some index => do
      let d ← schema.dimensions[index]?
      some d.taxonomy?

/-- Whether all scope filters of a view match. -/
def scopeMatches (schema : Schema) (view : View) : Option Bool :=
  view.filters.allM fun
    | .scope _ property expected => do
      let text? ← propertyText? schema view property
      some (text? == some expected)
    | .fact _ _ _ => some true

/-- The rows of a view; there are none if a scope filter does not match. -/
def viewRows (arith : Arithmetic σ) (plan : Plan) (matched : Bool) (workers : Nat)
    (records : List Record) : Option (List (GroupRow σ)) :=
  if matched then
    (groupRecords arith plan none workers records).map (groupRows arith plan.measures.length)
  else some []

/-- Runs the view of a scope and a name. -/
def view (arith : Arithmetic σ) (store : Store) (schema : Schema) (workers : Nat)
    (entity name : String) (dimension? member? : Option String) :
    Checked ViewFault (ViewResult σ) :=
  match schema.view? entity name dimension? with
  | none => throw (.notFound entity name)
  | some view => do
    let plan ← viewPlan schema view member?
    let matched ← scopeMatches schema view
    let rows ← viewRows arith plan matched workers store.toList
    pure
      { scope := view.scope
        name := view.name
        label := view.label
        breakdown := view.breakdownName
        measures := plan.measureNames
        rows := rows }

/-- The levels of a taxonomy. -/
def levelIndexes (schema : Schema) (records : List Record) (taxonomy : Taxonomy) :
    Option (Std.TreeMap Nat LevelIndex) :=
  taxonomy.levels.foldlM
    (fun levels l => do
      let d ← schema.dimensions[l.dimension]?
      some (levels.insert l.level (.build d l.dimension records)))
    ∅

/-- The index of all taxonomies of a schema over some records. -/
def taxonomyIndex (schema : Schema) (records : List Record) : Option TaxonomyIndex := do
  let taxonomies ← schema.taxonomies.foldlM
    (fun index taxonomy => do
      let levels ← levelIndexes schema records taxonomy
      some (index.insert taxonomy.name levels))
    (∅ : Std.TreeMap String (Std.TreeMap Nat LevelIndex))
  some ⟨taxonomies⟩

theorem exists_word {n : Nat} (h : n < UInt64.size) : ∃ w, word n = some w ∧ w.toNat = n :=
  ⟨_, if_pos h, UInt64.toNat_ofNat_of_lt' h⟩

/-- The page of a query does not matter to its plan, nor to the facts that are grouped. -/
theorem aggregateWith_paged_eq (arith : Arithmetic σ) (store : Store) (schema : Schema)
    (workers : Nat) (query : Query) (page : Nat) (pageSize? : Option Nat) :
    store.aggregateWith arith schema workers (query.paged page pageSize?) =
      query.plan schema >>= fun plan => store.membersFor plan >>= fun members? =>
        .ok (.ofGroups arith (plan.paged page pageSize?)
          (FactCube.groupRecords arith plan members? workers store.toList)) := by
  have hplan : (query.paged page pageSize?).plan schema =
      (fun plan => plan.paged page pageSize?) <$> query.plan schema := by
    rw [Query.plan, Query.plan]
    simp only [map_bind]
    rfl
  rw [Store.aggregateWith, hplan, bind_map_left]
  rfl

/-- Rows that can be ordered, and counted in machine words, are cut to any page of any size. -/
theorem answer_eq {plan : Plan} {groups : Groups σ}
    (hordered : orderRows arith plan.order (groupRows arith plan.measureNames.length groups) =
      some (Aggregate.orderedRows arith plan groups))
    (hrows : (groupRows arith plan.measureNames.length groups).length < UInt64.size)
    (hcount : (groupRows arith plan.measureNames.length groups).foldl
      (fun count row => count + row.count) 0 < UInt64.size)
    (page : UInt64) (pageSize? : Option UInt64) :
    answer arith plan groups page pageSize? =
      some (.ofGroups arith (plan.paged page.toNat (pageSize?.map UInt64.toNat)) groups) := by
  rw [← Aggregate.length_orderedRows] at hrows
  obtain ⟨found, hfound, hfoundEq⟩ := exists_word hrows
  obtain ⟨count, hcountWord, hcountEq⟩ := exists_word hcount
  obtain ⟨w, hw, hbounds⟩ := exists_window page pageSize? found
  rw [hfoundEq] at hbounds
  simp only [answer, hordered, hfound, hcountWord, hw, Option.bind_eq_bind, Option.bind_some]
  rw [hbounds.pageOf_eq hrows, hcountEq, hfoundEq, hbounds.page_eq, hbounds.pages_eq,
    hbounds.pageSize_eq, Aggregate.length_orderedRows]
  rfl

/-- A query is answered, for any page and any size. -/
theorem returns_aggregate [Std.TransCmp arith.compare] {doc : Document}
    (hvalid : doc.validate = .ok schema) (hfacts : ∀ record ∈ store.toList, schema.IsFact record)
    (hsize : store.size < UInt64.size) (workers : Nat) (query : Query) (page : UInt64)
    (pageSize? : Option UInt64) :
    Returns (aggregate arith store schema workers query page pageSize?)
      (store.aggregateWith arith schema workers
        (query.paged page.toNat (pageSize?.map UInt64.toNat))) := by
  rw [aggregate, aggregateWith_paged_eq]
  refine (returns_plan schema query).bind fun plan hplan => (returns_lift _).bind
    fun members? _ => returns_bind_of_eq_some (groupRecords_eq plan members? workers _) ?_
  have hschema := Document.wellFormed_of_validate hvalid
  have hrange := (Schema.IsPlan.query hplan).isInRange hvalid
  obtain ⟨hrows, hcount⟩ :=
    @length_rowsOf_le _ arith _ plan members? _ workers hschema hrange hfacts
  rw [rowsOf, ← plan.length_measureNames, Store.length_toList] at hrows hcount
  refine returns_of_eq_some (answer_eq ?_ (hrows.trans_lt hsize) (hcount.trans_lt hsize) page
    pageSize?)
  rw [Aggregate.orderedRows, plan.length_measureNames]
  exact @orderRows_eq _ arith _ _ _ _
    (hasTypes_groupRecords hschema hrange.drilldowns members? hfacts workers)
    fun row hrow key hkey => exists_cellAt? hschema hrange hfacts hrow hkey

/-- The facts that a query selects are collected. -/
theorem returns_collect (store : Store) (schema : Schema) (query : Query) (name : String) :
    Returns (collect store schema query name) (store.collect schema query name) :=
  (returns_plan schema query).bind fun _ _ => (returns_lift _).bind fun _ _ => returns_pure _

/-- The values at the field of a path are listed. -/
theorem returns_distinct (store : Store) (schema : Schema) (path : String) :
    Returns (distinct store schema path) (store.distinct schema path) :=
  (returns_resolve schema path).bind fun _ _ => returns_pure _

variable {view : View}

theorem returns_memberFilter (h : view.WellFormed schema) (member : String) :
    Returns (memberFilter schema view member) (FactCube.memberFilter schema view member) := by
  rcases h.subject with ⟨-, hnone⟩ | ⟨-, index, d, position, hindex, hd, -, hposition⟩
  · simp only [memberFilter, FactCube.memberFilter, hnone]
    exact returns_throw _
  · simp only [memberFilter, FactCube.memberFilter, hindex]
    refine returns_bind_of_eq_some hd ?_
    simp only [hd, Option.bind_some, hposition]
    exact returns_pure _

/-- A view is planned. -/
theorem returns_viewPlan (h : view.WellFormed schema) (member? : Option String) :
    Returns (viewPlan schema view member?) (view.plan schema member?) := by
  rw [viewPlan, View.plan]
  simp only
  split
  · exact returns_throw _
  · cases member? with
    | none => exact returns_pure _
    | some member =>
      refine Returns.bind ((returns_memberFilter h member).bind fun filter _ =>
        returns_pure [filter]) fun ofMember _ => returns_pure _

theorem propertyText?_eq (h : view.WellFormed schema) (property : ScopeProperty) :
    propertyText? schema view property = some (FactCube.propertyText? schema view property) := by
  cases property with
  | taxonomy =>
    rcases h.subject with ⟨-, hnone⟩ | ⟨-, index, d, -, hindex, hd, -, -⟩
    · simp only [propertyText?, FactCube.propertyText?, hnone, Option.bind_none]
    · simp only [propertyText?, FactCube.propertyText?, hindex, hd, Option.bind_some]
      rfl
  | _ => rfl

/-- The scope filters of a view are settled. -/
theorem scopeMatches_eq (h : view.WellFormed schema) :
    scopeMatches schema view = some (FactCube.scopeMatches schema view) := by
  refine allM_eq_some fun filter _ => ?_
  cases filter with
  | scope key property expected =>
    simp only [propertyText?_eq h property]
    rfl
  | fact key field expected => rfl

theorem viewRows_eq (plan : Plan) (matched : Bool) (workers : Nat) (records : List Record) :
    viewRows arith plan matched workers records =
      some (if matched then
        groupRows arith plan.measures.length
          (FactCube.groupRecords arith plan none workers records)
      else []) := by
  rw [viewRows, groupRecords_eq]
  cases matched <;> rfl

/-- A view is run, for any member. -/
theorem returns_view {doc : Document} (hvalid : doc.validate = .ok schema)
    (arith : Arithmetic σ) (store : Store) (workers : Nat) (entity name : String)
    (dimension? member? : Option String) :
    Returns (Checked.view arith store schema workers entity name dimension? member?)
      (store.viewWith arith schema workers entity name dimension? member?) := by
  rw [Checked.view, Store.viewWith]
  cases hfound : schema.view? entity name dimension? with
  | none => exact returns_throw _
  | some view =>
    have hwell := Document.wellFormed_view hvalid (List.mem_of_find?_eq_some hfound)
    exact (returns_viewPlan hwell member?).bind fun plan _ =>
      returns_bind_of_eq_some (scopeMatches_eq hwell)
        (returns_bind_of_eq_some (viewRows_eq plan _ workers store.toList) (returns_pure _))

/-- Taxonomies are indexed. -/
theorem taxonomyIndex_eq
    (h : ∀ taxonomy ∈ schema.taxonomies, ∀ l ∈ taxonomy.levels,
      ∃ d, schema.dimensions[l.dimension]? = some d) (records : List Record) :
    taxonomyIndex schema records = some (.build schema records) := by
  have hlevels : ∀ taxonomy ∈ schema.taxonomies,
      levelIndexes schema records taxonomy =
        some (FactCube.levelIndexes schema records taxonomy) := by
    intro taxonomy htaxonomy
    refine foldlM_eq_some (fun l hl levels => ?_) ∅
    obtain ⟨d, hd⟩ := h taxonomy htaxonomy l hl
    rw [hd]
    rfl
  refine Option.bind_eq_some_iff.2 ⟨_, foldlM_eq_some (fun taxonomy htaxonomy index => ?_) ∅, rfl⟩
  rw [hlevels taxonomy htaxonomy]
  rfl

end Requests

end Checked

/-! ## Validated schemas -/

/-- Whether the positions in a schema and in the plans that are run on it are in range, so that
reading its fields, planning a query and mapping a row are not broken off. -/
structure Schema.IsInRange (schema : Schema) : Prop where
  /-- The fields that the schema holds are places of every fact, with a path and a datatype. -/
  field : ∀ field, schema.Holds field → schema.HasField field ∧
    Checked.pathOf schema field = some (schema.pathOf field) ∧
    Checked.typeOf schema field = some (schema.typeOf field)
  path : ∀ path, Checked.resolve? schema path = some (schema.resolve? path)
  /-- The subject of a view is a dimension whose members have names. -/
  subject : ∀ view ∈ schema.views, ∀ index, view.subject? = some index →
    ∃ d position, schema.dimensions[index]? = some d ∧
      d.attributeIndex? nameAttribute = some position
  level : ∀ taxonomy ∈ schema.taxonomies, ∀ l ∈ taxonomy.levels,
    ∃ d, schema.dimensions[l.dimension]? = some d ∧ d.kind = .classifier
  plan : ∀ plan, schema.IsPlan plan → plan.IsInRange schema
  query : ∀ query, Checked.Returns (Checked.plan schema query) (query.plan schema)
  row : ∀ row, Checked.Returns (Checked.mapRow schema row) (mapRow schema row)

/-- Whether every request to a store is answered as its definition says, with nothing broken off. -/
structure Store.IsAnswered (schema : Schema) (workers : Nat) (store : Store) : Prop where
  value : ∀ field, schema.Holds field → ∀ record ∈ store.toList,
    ∃ v, record.value? field = some v
  /-- The rows of a plan have the columns that its order keys name. -/
  rows : ∀ plan, schema.IsPlan plan → ∀ members?,
    ∀ row ∈ rowsOf .binary64 plan members? workers store.toList,
      row.keys.length = plan.drilldowns.length ∧ row.totals.length = plan.measures.length
  aggregate : ∀ query (page : UInt64) (pageSize? : Option UInt64),
    Checked.Returns (Checked.aggregate .binary64 store schema workers query page pageSize?)
      (store.aggregate schema workers (query.paged page.toNat (pageSize?.map UInt64.toNat)))
  collect : ∀ query name,
    Checked.Returns (Checked.collect store schema query name) (store.collect schema query name)
  distinct : ∀ path,
    Checked.Returns (Checked.distinct store schema path) (store.distinct schema path)
  view : ∀ entity name dimension? member?,
    Checked.Returns (Checked.view .binary64 store schema workers entity name dimension? member?)
      (store.view schema workers entity name dimension? member?)
  /-- A view fails only if there is none, no measure, or a member of the dataset is asked for. -/
  view_fault : ∀ entity name dimension? member? fault,
    store.view schema workers entity name dimension? member? = .error fault →
      fault = .notFound entity name ∨ ∃ view ∈ schema.views,
        fault = .unsuitable view.name "the dataset declares no measure dimension" ∨
        fault = .unsuitable view.name "dataset views have no members"
  /-- So the subject of a view never lacks its name. -/
  named : ∀ entity name dimension? member? other,
    store.view schema workers entity name dimension? member? ≠
      .error (.unsuitable other "subject dimension has no name attribute")
  taxonomyIndex :
    Checked.taxonomyIndex schema store.toList = some (.build schema store.toList)

/-- The positions in a validated schema are in range. -/
theorem Document.isInRange_of_validate {doc : Document} {schema : Schema}
    (hvalid : doc.validate = .ok schema) : schema.IsInRange where
  field := fun field hfield => by
    have hplace := hfield.hasField hvalid
    exact ⟨hplace, Checked.pathOf_eq hplace, Checked.typeOf_eq hplace⟩
  path := Checked.resolve?_eq schema
  subject := by
    intro view hview index hindex
    rcases (Document.wellFormed_view hvalid hview).subject with
      ⟨-, hnone⟩ | ⟨-, index', d, position, hindex', hd, -, hposition⟩
    · rw [hnone] at hindex
      cases hindex
    · cases hindex.symm.trans hindex'
      exact ⟨d, position, hd, hposition⟩
  level := by
    intro taxonomy htaxonomy l hl
    obtain ⟨d, hd, hkind, -⟩ := Document.exists_classifier_of_validate hvalid htaxonomy hl
    exact ⟨d, hd, hkind⟩
  plan := fun _ hplan => hplan.isInRange hvalid
  query := Checked.returns_plan schema
  row := Checked.returns_mapRow (Document.wellFormed_of_validate hvalid)

/-- The faults of a view of a validated schema. -/
theorem Document.fault_of_plan {doc : Document} {schema : Schema}
    (hvalid : doc.validate = .ok schema) {view : View} (hview : view ∈ schema.views)
    {member? : Option String} {fault : ViewFault}
    (h : view.plan schema member? = .error fault) :
    fault = .unsuitable view.name "the dataset declares no measure dimension" ∨
      fault = .unsuitable view.name "dataset views have no members" := by
  by_cases hmeasures : schema.measures = []
  · rw [View.plan, Query.allMeasures, hmeasures] at h
    cases h
    exact .inl rfl
  · rw [(Document.wellFormed_view hvalid hview).plan_eq hmeasures] at h
    split at h
    · cases h
      exact .inr rfl
    · cases h

theorem Document.fault_of_viewWith {σ : Type} {arith : Arithmetic σ} {doc : Document}
    {schema : Schema} (hvalid : doc.validate = .ok schema) {store : Store} {workers : Nat}
    {entity name : String} {dimension? member? : Option String} {fault : ViewFault}
    (h : store.viewWith arith schema workers entity name dimension? member? = .error fault) :
    fault = .notFound entity name ∨ ∃ view ∈ schema.views,
      fault = .unsuitable view.name "the dataset declares no measure dimension" ∨
      fault = .unsuitable view.name "dataset views have no members" := by
  rw [Store.viewWith] at h
  split at h
  · cases h
    exact .inl rfl
  · rename_i view hfound
    have hview := List.mem_of_find?_eq_some hfound
    have hplan : view.plan schema member? = .error fault := by
      cases hplan : view.plan schema member? with
      | error found =>
        rw [hplan] at h
        cases h
        rfl
      | ok plan =>
        rw [hplan] at h
        cases h
    exact .inr ⟨view, hview, Document.fault_of_plan hvalid hview hplan⟩

/-- Nothing that is asked of a validated schema and a store of its facts is broken off: every look-up
is in range, and every request gets an answer or one of its faults. The store holds no more facts
than a machine word can count. -/
theorem Document.isAnswered_of_validate {doc : Document} {schema : Schema}
    (hvalid : doc.validate = .ok schema) :
    schema.IsInRange ∧ ∀ store : Store, (∀ record ∈ store.toList, schema.IsFact record) →
      store.size < UInt64.size → ∀ workers, store.IsAnswered schema workers := by
  refine ⟨isInRange_of_validate hvalid, fun store hfacts hsize workers => ?_⟩
  have hschema := wellFormed_of_validate hvalid
  have hlevels := (isInRange_of_validate hvalid).level
  constructor
  · intro field hfield record hrecord
    exact exists_valueAt ((hfacts record hrecord).admits hschema) (hfield.hasField hvalid)
  · exact fun plan hplan members? row =>
      length_of_mem_rowsOf hschema (hplan.isInRange hvalid) hfacts
  · exact fun query page pageSize? =>
      Checked.returns_aggregate hvalid hfacts hsize workers query page pageSize?
  · exact Checked.returns_collect store schema
  · exact Checked.returns_distinct store schema
  · exact Checked.returns_view hvalid .binary64 store workers
  · exact fun _ _ _ _ _ => fault_of_viewWith hvalid
  · intro entity name dimension? member? other h
    rcases fault_of_viewWith hvalid h with hfault | ⟨view, -, hfault | hfault⟩
    · cases hfault
    · exact absurd (ViewFault.unsuitable.inj hfault).2 (by decide)
    · exact absurd (ViewFault.unsuitable.inj hfault).2 (by decide)
  · refine Checked.taxonomyIndex_eq (fun taxonomy htaxonomy l hl => ?_) _
    obtain ⟨d, hd, -⟩ := hlevels taxonomy htaxonomy l hl
    exact ⟨d, hd⟩

theorem Sample.size_paymentsStore : paymentsStore.size < UInt64.size :=
  (isLoad_loadRows paymentsSchema .strict 1 _ .empty).size_le.trans_lt (by decide)

/-- Payments to recipients, by a view for one of them or without one. -/
theorem Document.isAnswered_of_validate_sample :
    Sample.paymentsDocument.validate = .ok Sample.paymentsSchema ∧
      (∀ record ∈ Sample.paymentsStore.toList, Sample.paymentsSchema.IsFact record) ∧
      Sample.paymentsStore.size < UInt64.size ∧ Sample.paymentsSchema.IsInRange ∧
      Sample.paymentsStore.IsAnswered Sample.paymentsSchema 4 :=
  have hanswered := Document.isAnswered_of_validate Sample.validate_payments
  ⟨Sample.validate_payments, Sample.isFact_paymentsStore, Sample.size_paymentsStore, hanswered.1,
    hanswered.2 _ Sample.isFact_paymentsStore Sample.size_paymentsStore 4⟩

end FactCube
