import FactCube.Proofs.Paths
import FactCube.Proofs.RowOrder
import FactCube.Proofs.TypedFacts

/-!
# Positions in range

Validation turns names into positions: of the dimension and the attribute that a slot, a breakdown or
a filter stands for, of the subject of a view and of the classifier on a level. Planning does so once
more for the fields, measures and order keys of a query. The positions of a validated schema and of
the plans that are run on it are in range: of the dimensions and their attributes, of the records of
facts, and of the keys and totals of the rows.

Results:
* `Schema.Holds.hasField`: the fields that a schema holds are places of every fact.
* `Schema.IsPlan.isInRange`: the positions in a plan are in range.
* `exists_cellAt?`: the rows of a plan have a cell for each of its order keys.
-/

namespace FactCube

/-! ## Fields of a schema -/

/-- The fields that a schema holds or has a path for. -/
inductive Schema.Holds (schema : Schema) : Field → Prop
  | slot {slot : MappedField} : slot ∈ schema.fields → Holds schema slot.target
  | measure {index : Nat} {d : Dimension} :
    (index, d) ∈ schema.measures → Holds schema (.scalar index)
  | breakdown {view : View} : view ∈ schema.views → Holds schema view.breakdown
  | filter {view : View} {key expected : String} {field : Field} :
    view ∈ schema.views → .fact key field expected ∈ view.filters → Holds schema field
  | path {path : String} {field : Field} :
    schema.resolve? path = some field → Holds schema field

namespace Schema

variable {schema : Schema}

theorem HasField.dimension_lt {field : Field} (h : schema.HasField field) :
    field.dimension < schema.dimensions.length := by
  cases h with
  | scalar hd _ => exact (List.getElem?_eq_some_iff.1 hd).1
  | component hd _ _ => exact (List.getElem?_eq_some_iff.1 hd).1
  | datePart hd _ => exact (List.getElem?_eq_some_iff.1 hd).1

theorem hasField_of_mem_fields (hschema : schema.WellFormed) {slot : MappedField}
    (h : slot ∈ schema.fields) : schema.HasField slot.target := by
  have hslot : slot.slot ∈ Validation.slots schema.dimensions := by
    rw [← hschema.fields_slots]
    exact List.mem_map_of_mem h
  exact (Validation.hasField_of_mem_slots hslot).1

/-- An attribute of a subject is a place of every fact. -/
theorem hasField_of_subject {subject? : Option Nat} {name : String} {field : Field}
    (h : (subject?.bind fun index => (schema.dimensions[index]?).bind fun d =>
      (d.attributeIndex? name).map fun position => .component index position) = some field) :
    schema.HasField field := by
  obtain ⟨index, -, h⟩ := Option.bind_eq_some_iff.1 h
  obtain ⟨d, hd, h⟩ := Option.bind_eq_some_iff.1 h
  obtain ⟨position, hposition, rfl⟩ := Option.map_eq_some_iff.1 h
  exact hasField_component hd hposition

theorem hasField_of_filterField? {subject? : Option Nat} {key : String} {field : Field}
    (h : Validation.filterField? schema subject? key = some field) : schema.HasField field := by
  rw [Validation.filterField?] at h
  split at h
  · rename_i found hfound
    cases h
    exact hasField_of_subject hfound
  · exact hasField_of_resolve? h

theorem hasField_of_mem_measures {doc : Document} (hvalid : doc.validate = .ok schema)
    {index : Nat} {d : Dimension} (h : (index, d) ∈ schema.measures) :
    schema.HasField (.scalar index) := by
  obtain ⟨datatype, default?, hd, hcontent, -⟩ := exists_content_of_mem_measures hvalid h
  exact .scalar hd hcontent

/-- The fields that a schema holds are places of every fact. -/
theorem Holds.hasField {doc : Document} (hvalid : doc.validate = .ok schema) {field : Field}
    (h : schema.Holds field) : schema.HasField field := by
  cases h with
  | slot hslot => exact hasField_of_mem_fields (Document.wellFormed_of_validate hvalid) hslot
  | measure hmeasure => exact hasField_of_mem_measures hvalid hmeasure
  | breakdown hview => exact Document.hasField_breakdown hvalid hview
  | filter hview hfilter =>
    exact hasField_of_filterField? ((Document.wellFormed_view hvalid hview).filters _ _ _ hfilter)
  | path hpath => exact hasField_of_resolve? hpath

end Schema

/-! ## Plans -/

/-- Whether a target is a column of rows of some counts of keys and totals. -/
def OrderTarget.IsWithin (keys totals : Nat) : OrderTarget → Prop
  | .drilldown column => column < keys
  | .measure column => column < totals
  | .count => True

/-- Whether the positions in a plan are in range: its fields are places of every fact, and its order
keys are columns of its rows. -/
structure Plan.IsInRange (schema : Schema) (plan : Plan) : Prop where
  drilldowns : ∀ field ∈ plan.drilldowns, schema.HasField field
  cuts : ∀ cut ∈ plan.cuts, schema.HasField cut.1
  filters : ∀ p ∈ plan.filters, schema.HasField p.field
  slice : ∀ group ∈ plan.slice, ∀ p ∈ group, schema.HasField p.field
  measures : ∀ m ∈ plan.measures, schema.HasField (.scalar m.1)
  order : ∀ key ∈ plan.order, key.1.IsWithin plan.drilldowns.length plan.measures.length

namespace Query

variable {schema : Schema} {query : Query} {plan : Plan}

theorem forall_mem_addCut {P : Field → Prop} {field : Field} {value : Value}
    {planned : List (Field × List Value)} (hfield : P field) (h : ∀ cut ∈ planned, P cut.1) :
    ∀ cut ∈ addCut field value planned, P cut.1 := by
  induction planned with
  | nil => exact List.forall_mem_singleton.2 hfield
  | cons first planned ih =>
    rw [List.forall_mem_cons] at h
    rw [addCut]
    split <;> rw [List.forall_mem_cons]
    · exact h
    · exact ⟨h.1, ih h.2⟩

theorem hasField_of_planCuts {planned planned' : List (Field × List Value)} {cuts : List Cut}
    (h : planCuts schema planned cuts = .ok planned')
    (hplanned : ∀ cut ∈ planned, schema.HasField cut.1) :
    ∀ cut ∈ planned', schema.HasField cut.1 := by
  induction cuts generalizing planned with
  | nil =>
    cases h
    exact hplanned
  | cons cut cuts ih =>
    obtain ⟨field, hfield, h⟩ := Outcome.bind_eq_ok_iff.1 h
    obtain ⟨value, -, h⟩ := Outcome.bind_eq_ok_iff.1 h
    exact ih h (forall_mem_addCut (hasField_of_resolve hfield) hplanned)

theorem hasField_of_planCondition {c : Condition} {p : FieldPredicate}
    (h : planCondition schema c = .ok p) : schema.HasField p.field := by
  obtain ⟨field, hfield, h⟩ := Outcome.bind_eq_ok_iff.1 h
  obtain ⟨literal, -, h⟩ := Outcome.bind_eq_ok_iff.1 h
  cases h
  exact hasField_of_resolve hfield

/-- An order key becomes a column of the drilldowns or the measures that it was looked up in. -/
theorem isWithin_of_planOrder {drilldowns : List String} {measures : List (Nat × String)}
    {key : OrderKey} {planned : OrderTarget × Direction}
    (h : planOrder drilldowns measures key = .ok planned) :
    planned.1.IsWithin drilldowns.length measures.length := by
  rw [planOrder] at h
  split at h
  · rename_i column hcolumn
    cases h
    exact (List.findIdx?_eq_some_iff_getElem.1 hcolumn).1
  · split at h
    · rename_i column hcolumn
      cases h
      exact (List.findIdx?_eq_some_iff_getElem.1 hcolumn).1
    · split at h
      · cases h
        trivial
      · cases h

/-- The positions in the plan of a query are in range. -/
theorem IsResolved.isInRange {doc : Document} (hvalid : doc.validate = .ok schema)
    (h : query.IsResolved schema plan) : plan.IsInRange schema where
  drilldowns := fun _ => h.hasField
  cuts := hasField_of_planCuts h.cuts (List.forall_mem_nil _)
  filters := by
    rw [h.filters]
    exact List.forall_mem_nil _
  slice := by
    intro group hgroup p hp
    obtain ⟨conditions, -, hconditions⟩ := Outcome.exists_of_mem_mapM h.slice hgroup
    obtain ⟨c, -, hc⟩ := Outcome.exists_of_mem_mapM hconditions hp
    exact hasField_of_planCondition hc
  measures := by
    intro m hm
    obtain ⟨d, hd, -⟩ := h.exists_measure hm
    exact Schema.hasField_of_mem_measures hvalid hd
  order := by
    intro planned hplanned
    obtain ⟨key, -, hkey⟩ := Outcome.exists_of_mem_mapM h.order hplanned
    rw [← (Outcome.mapM_eq_ok_iff.1 h.drilldowns).length_eq]
    exact isWithin_of_planOrder hkey

end Query

namespace View

variable {schema : Schema} {view : View} {member? : Option String}

theorem WellFormed.hasField_comparisons (h : view.WellFormed schema) {compared : Field × String}
    (hcompared : compared ∈ view.comparisons schema member?) : schema.HasField compared.1 := by
  obtain ⟨field, text⟩ := compared
  rcases mem_comparisons hcompared with ⟨key, hfilter⟩ | ⟨hsubject, -⟩
  · exact Schema.hasField_of_filterField? (h.filters key field text hfilter)
  · exact Schema.hasField_of_subject hsubject

/-- A view has a plan only if there is a measure. -/
theorem measures_ne_nil_of_plan {plan : Plan} (h : view.plan schema member? = .ok plan) :
    schema.measures ≠ [] := by
  intro hnil
  rw [View.plan, Query.allMeasures, hnil] at h
  cases h

/-- The positions in the plan of a view are in range. -/
theorem WellFormed.isInRange {doc : Document} (hvalid : doc.validate = .ok schema)
    (h : view.WellFormed schema) {plan : Plan} (hplan : view.plan schema member? = .ok plan) :
    plan.IsInRange schema := by
  rw [h.plan_eq (measures_ne_nil_of_plan hplan)] at hplan
  split at hplan
  · cases hplan
  cases hplan
  constructor
  · exact List.forall_mem_singleton.2 (Schema.hasField_of_resolve? h.breakdown)
  · exact List.forall_mem_nil _
  · rw [planOf, List.forall_mem_map]
    exact fun _ => h.hasField_comparisons
  · exact List.forall_mem_nil _
  · rw [planOf, Query.allMeasures, List.forall_mem_map]
    exact fun _ => Schema.hasField_of_mem_measures hvalid
  · exact List.forall_mem_nil _

end View

/-- The positions in a plan that is run on a dataset are in range. -/
theorem Schema.IsPlan.isInRange {doc : Document} {schema : Schema}
    (hvalid : doc.validate = .ok schema) {plan : Plan} (h : schema.IsPlan plan) :
    plan.IsInRange schema := by
  cases h with
  | query hplan => exact (Query.resolved_of_plan hplan).isInRange hvalid
  | view hview hplan => exact (Document.wellFormed_view hvalid hview).isInRange hvalid hplan

/-! ## Rows -/

section Rows

variable {σ : Type} {arith : Arithmetic σ} {schema : Schema} {plan : Plan}
  {members? : Option (Std.TreeSet String)} {records : List Record} {workers : Nat}

/-- The rows of a plan. -/
def rowsOf (arith : Arithmetic σ) (plan : Plan) (members? : Option (Std.TreeSet String))
    (workers : Nat) (records : List Record) : List (GroupRow σ) :=
  groupRows arith plan.measures.length (groupRecords arith plan members? workers records)

/-- A row of a plan has a key for every drilldown and a total for every measure. -/
theorem length_of_mem_rowsOf (hschema : schema.WellFormed) (hplan : plan.IsInRange schema)
    (hrecords : ∀ record ∈ records, schema.IsFact record) {row : GroupRow σ}
    (hrow : row ∈ rowsOf arith plan members? workers records) :
    row.keys.length = plan.drilldowns.length ∧ row.totals.length = plan.measures.length := by
  constructor
  · have htypes := hasTypes_groupRecords hschema hplan.drilldowns members? hrecords workers row hrow
    have hlength := congrArg List.length htypes
    rwa [List.length_map, List.length_map] at hlength
  · obtain ⟨keyed, -, rfl⟩ := List.mem_map.1 hrow
    exact Arithmetic.length_resize _ _

/-- The rows of a plan have a cell for each of its order keys. -/
theorem exists_cellAt? (hschema : schema.WellFormed) (hplan : plan.IsInRange schema)
    (hrecords : ∀ record ∈ records, schema.IsFact record) {row : GroupRow σ}
    (hrow : row ∈ rowsOf arith plan members? workers records) {key : OrderTarget × Direction}
    (hkey : key ∈ plan.order) : ∃ cell, row.cellAt? key.1 = some cell := by
  obtain ⟨hkeys, htotals⟩ := length_of_mem_rowsOf hschema hplan hrecords hrow
  obtain ⟨target, direction⟩ := key
  have hwithin := hplan.order _ hkey
  cases target with
  | drilldown column =>
    have hlt : column < row.keys.length := by rwa [hkeys]
    exact ⟨.value row.keys[column], by rw [GroupRow.cellAt?, List.getElem?_eq_getElem hlt]; rfl⟩
  | measure column =>
    have hlt : column < row.totals.length := by rwa [htotals]
    exact ⟨.total row.totals[column], by rw [GroupRow.cellAt?, List.getElem?_eq_getElem hlt]; rfl⟩
  | count => exact ⟨.count row.count, rfl⟩

/-- There are no more rows than records, and they count no more facts. -/
theorem length_rowsOf_le (hschema : schema.WellFormed) (hplan : plan.IsInRange schema)
    (hrecords : ∀ record ∈ records, schema.IsFact record) :
    (rowsOf arith plan members? workers records).length ≤ records.length ∧
      (rowsOf arith plan members? workers records).foldl (fun count row => count + row.count) 0 ≤
        records.length := by
  obtain ⟨rows, hrows, houtline⟩ :=
    @exists_isGroupBy_groupRecords _ arith _ hschema _ hplan.drilldowns members? _ hrecords workers
  have hgrouped : (plan.grouped members? records).length ≤ records.length :=
    List.length_filter_le _ _
  obtain ⟨hcount, hlength⟩ := counts_eq_of_outline houtline
  constructor
  · rw [rowsOf, hlength, hrows.length_eq]
    refine (List.dedup_sublist _).length_le.trans ?_
    rwa [List.length_map]
  · exact (hcount.trans hrows.foldl_count).trans_le hgrouped

end Rows

end FactCube
