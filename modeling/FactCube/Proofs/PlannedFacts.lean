import FactCube.Cube.Groups
import FactCube.Proofs.Facts

/-!
# Facts of a plan

A plan names fields of its schema, so every fact has a value at each of them. A fact takes part in a
grouping if it is a member, selected and blank in no drilldown; its key is the list of its values at
the drilldowns and it brings one amount for each measure.

Results:
* `Query.resolved_of_plan`: a plan is its query with every name resolved, and a query with every
  name resolved has this plan (`Query.IsResolved.plan_eq`).
* `Plan.groupKey_eq`: the key of a fact is the list of its values, unless one is blank.
* `contributions_eq`: what some records bring to the grouping of a plan.
-/

namespace FactCube

/-! ## Plans of a query -/

theorem Schema.mem_numbered_iff {schema : Schema} {index : Nat} {d : Dimension} :
    (index, d) ∈ schema.numbered ↔ schema.dimensions[index]? = some d := by
  rw [numbered, List.mem_map]
  constructor
  · rintro ⟨⟨d', index'⟩, hmem, heq⟩
    obtain ⟨rfl, rfl⟩ := Prod.mk.inj heq
    exact List.mem_zipIdx_iff_getElem?.1 hmem
  · intro h
    exact ⟨(d, index), List.mem_zipIdx_iff_getElem?.2 h, rfl⟩

namespace Query

variable {schema : Schema} {query : Query} {plan : Plan}

/-- What a plan says of its query: every name is resolved, and the rest is as asked. -/
structure IsResolved (schema : Schema) (query : Query) (plan : Plan) : Prop where
  drilldowns : query.drilldowns.mapM (resolve schema) = .ok plan.drilldowns
  cuts : planCuts schema [] query.cuts = .ok plan.cuts
  slice : (query.slice.mapM fun group => group.mapM (planCondition schema)) = .ok plan.slice
  measures : planMeasures schema query.measures = .ok plan.measures
  order : query.order.mapM (planOrder query.drilldowns plan.measures) = .ok plan.order
  drilldownNames : plan.drilldownNames = query.drilldowns
  filters : plan.filters = []
  page : plan.page = Nat.max query.page 1
  pageSize? : plan.pageSize? = query.pageSize?
  collection? : plan.collection? = query.collection?

/-- A plan is its query with every name resolved. -/
theorem resolved_of_plan (h : query.plan schema = .ok plan) : query.IsResolved schema plan := by
  rw [Query.plan] at h
  obtain ⟨drilldowns, hdrilldowns, h⟩ := Outcome.bind_eq_ok_iff.1 h
  obtain ⟨cuts, hcuts, h⟩ := Outcome.bind_eq_ok_iff.1 h
  obtain ⟨slice, hslice, h⟩ := Outcome.bind_eq_ok_iff.1 h
  obtain ⟨measures, hmeasures, h⟩ := Outcome.bind_eq_ok_iff.1 h
  obtain ⟨order, horder, h⟩ := Outcome.bind_eq_ok_iff.1 h
  cases h
  exact ⟨hdrilldowns, hcuts, hslice, hmeasures, horder, rfl, rfl, rfl, rfl, rfl⟩

/-- A query whose names are resolved has this plan. -/
theorem IsResolved.plan_eq (h : query.IsResolved schema plan) : query.plan schema = .ok plan := by
  refine Outcome.bind_eq_ok_iff.2 ⟨_, h.drilldowns, Outcome.bind_eq_ok_iff.2 ⟨_, h.cuts, ?_⟩⟩
  refine Outcome.bind_eq_ok_iff.2 ⟨_, h.slice, Outcome.bind_eq_ok_iff.2 ⟨_, h.measures, ?_⟩⟩
  refine Outcome.bind_eq_ok_iff.2 ⟨_, h.order, ?_⟩
  simp only [← h.drilldownNames, ← h.filters, ← h.page, ← h.pageSize?, ← h.collection?]

theorem hasField_of_resolve {path : String} {field : Field}
    (h : resolve schema path = .ok field) : schema.HasField field := by
  rw [resolve] at h
  split at h
  · rename_i found hfound
    cases h
    exact Schema.hasField_of_resolve? hfound
  · cases h

/-- The drilldowns are fields of the schema. -/
theorem IsResolved.hasField (h : query.IsResolved schema plan) {field : Field}
    (hfield : field ∈ plan.drilldowns) : schema.HasField field := by
  obtain ⟨path, -, hpath⟩ := Outcome.exists_of_mem_mapM h.drilldowns hfield
  exact hasField_of_resolve hpath

/-- A planned measure is a measure of the schema under its name. -/
theorem IsResolved.exists_measure (h : query.IsResolved schema plan) {m : Nat × String}
    (hm : m ∈ plan.measures) : ∃ d, (m.1, d) ∈ schema.measures ∧ d.name = m.2 := by
  have hmeasures := h.measures
  rw [planMeasures] at hmeasures
  split at hmeasures
  · rw [Except.ok.injEq] at hmeasures
    rw [← hmeasures, allMeasures, List.mem_map] at hm
    obtain ⟨⟨index, d⟩, hmem, rfl⟩ := hm
    exact ⟨d, hmem, rfl⟩
  · obtain ⟨name, -, hname⟩ := Outcome.exists_of_mem_mapM hmeasures hm
    rw [planMeasure] at hname
    split at hname
    · rename_i index d hfind
      cases hname
      exact ⟨d, List.mem_of_find?_eq_some hfind, rfl⟩
    · cases hname

/-- A planned measure is a dimension of its name. -/
theorem IsResolved.exists_dimension (h : query.IsResolved schema plan) {m : Nat × String}
    (hm : m ∈ plan.measures) : ∃ d, schema.dimensions[m.1]? = some d ∧ d.name = m.2 := by
  obtain ⟨d, hmem, hname⟩ := h.exists_measure hm
  exact ⟨d, Schema.mem_numbered_iff.1 (List.mem_of_mem_filter hmem), hname⟩

/-- Measures of one name are the same dimension. -/
theorem IsResolved.index_eq (hschema : schema.WellFormed) (h : query.IsResolved schema plan)
    {m n : Nat × String} (hm : m ∈ plan.measures) (hn : n ∈ plan.measures) (hname : m.2 = n.2) :
    m.1 = n.1 := by
  obtain ⟨d, hd, hdname⟩ := h.exists_dimension hm
  obtain ⟨e, he, hename⟩ := h.exists_dimension hn
  obtain ⟨hm', -⟩ := List.getElem?_eq_some_iff.1 hd
  have hlt : m.1 < (schema.dimensions.map Dimension.name).length := by rwa [List.length_map]
  have heq : (schema.dimensions.map Dimension.name)[m.1]? =
      (schema.dimensions.map Dimension.name)[n.1]? := by
    rw [List.getElem?_map, List.getElem?_map, hd, he, Option.map_some, Option.map_some, hdname,
      hename, hname]
  exact (List.getElem?_inj hlt hschema.names_nodup).1 heq

end Query

/-! ## Keys of facts -/

namespace Plan

@[simp] theorem length_measureNames (plan : Plan) :
    plan.measureNames.length = plan.measures.length := List.length_map _

/-- The values a plan groups contents by. -/
def tuple (plan : Plan) (contents : Contents) : List Value :=
  plan.drilldowns.filterMap (valueAt contents)

/-- Whether contents are blank in a drilldown of a plan. -/
def isBlankIn (plan : Plan) (contents : Contents) : Bool :=
  plan.drilldowns.any fun field => (valueAt contents field).any Value.isBlank

/-- The key of a fact is the list of its values, unless one is blank. -/
theorem groupKey_eq {schema : Schema} {plan : Plan}
    (hplan : ∀ field ∈ plan.drilldowns, schema.HasField field) {contents : Contents}
    (hcontents : schema.Admits contents) :
    plan.groupKey contents =
      if plan.isBlankIn contents then none else some (plan.tuple contents) := by
  rw [groupKey, isBlankIn, tuple]
  generalize plan.drilldowns = fields at hplan
  induction fields with
  | nil => rfl
  | cons field fields ih =>
    rw [List.forall_mem_cons] at hplan
    obtain ⟨value, hvalue⟩ := exists_valueAt hcontents hplan.1
    have hkey : keyAt contents field = if value.isBlank then none else some value := by
      rw [keyAt, hvalue]
      cases hblank : value.isBlank <;> simp [Option.filter, hblank]
    rw [List.mapM_cons, ih hplan.2, hkey, List.any_cons, List.filterMap_cons, hvalue,
      Option.any_some]
    cases value.isBlank with
    | true => rfl
    | false => cases fields.any fun field => (valueAt contents field).any Value.isBlank <;> rfl

/-- The key of a fact at a column is its value at the drilldown. -/
theorem getElem?_tuple {schema : Schema} {plan : Plan}
    (hfields : ∀ field ∈ plan.drilldowns, schema.HasField field) {contents : Contents}
    (hcontents : schema.Admits contents) (column : Nat) :
    (plan.tuple contents)[column]? = plan.drilldowns[column]?.bind (valueAt contents) := by
  rw [tuple]
  generalize plan.drilldowns = fields at hfields
  induction fields generalizing column with
  | nil => rfl
  | cons field fields ih =>
    rw [List.forall_mem_cons] at hfields
    obtain ⟨v, hv⟩ := exists_valueAt hcontents hfields.1
    rw [List.filterMap_cons_some hv]
    cases column with
    | zero => exact hv.symm
    | succ column => exact ih column hfields.2

/-- The values of a key fit the drilldowns. -/
theorem fits_of_groupKey {schema : Schema} {plan : Plan} {contents : Contents}
    (hcontents : schema.Admits contents) {key : List Value}
    (h : plan.groupKey contents = some key) :
    List.Forall₂ (fun field (value : Value) => value.Fits (schema.typeOf field))
      plan.drilldowns key := by
  rw [groupKey] at h
  generalize plan.drilldowns = fields at h
  induction fields generalizing key with
  | nil =>
    rw [List.mapM_nil, Option.pure_def, Option.some.injEq] at h
    subst h
    exact .nil
  | cons field fields ih =>
    rw [List.mapM_cons] at h
    simp only [Option.bind_eq_bind, Option.bind_eq_some_iff, Option.pure_def,
      Option.some.injEq] at h
    obtain ⟨value, hvalue, rest, hrest, rfl⟩ := h
    rw [keyAt, Option.filter_eq_some_iff] at hvalue
    exact .cons (fits_of_valueAt hcontents hvalue.1) (ih hrest)

end Plan

theorem map_dataType_of_fits {fields : List Field} {values : List Value} {f : Field → DataType}
    (h : List.Forall₂ (fun field (value : Value) => value.Fits (f field)) fields values) :
    values.map Value.dataType = fields.map f := by
  induction h with
  | nil => rfl
  | cons hvalue _ ih => rw [List.map_cons, List.map_cons, hvalue.dataType_eq, ih]

theorem regular_of_fits {fields : List Field} {values : List Value} {f : Field → DataType}
    (h : List.Forall₂ (fun field (value : Value) => value.Fits (f field)) fields values) :
    ∀ value ∈ values, value.Regular := by
  induction h with
  | nil => exact fun _ h => nomatch h
  | cons hvalue _ ih => exact List.forall_mem_cons.2 ⟨hvalue.regular, ih⟩

/-! ## Contributions -/

variable {σ : Type} {arith : Arithmetic σ}

/-- The number a fact brings to the sum of a measure; what is no number counts as zero. -/
def Arithmetic.amountOf (arith : Arithmetic σ) (dimension : Nat) (contents : Contents) : σ :=
  ((valueAt contents (.scalar dimension)).bind arith.ofValue?).getD arith.zero

theorem Arithmetic.amounts_eq (plan : Plan) (contents : Contents) :
    arith.amounts plan contents = plan.measures.map fun m => arith.amountOf m.1 contents := rfl

theorem Arithmetic.length_amounts (plan : Plan) (contents : Contents) :
    (arith.amounts plan contents).length = plan.measures.length := by
  rw [amounts_eq, List.length_map]

/-- The records a plan groups: members that it selects and that are blank in no drilldown. -/
def Plan.grouped (plan : Plan) (members? : Option (Std.TreeSet String)) (records : List Record) :
    List Record :=
  records.filter fun record =>
    isMember members? record.id && plan.selects record.contents && !plan.isBlankIn record.contents

/-- The contribution of a fact that is blank in no drilldown. -/
def Plan.contribute (plan : Plan) (arith : Arithmetic σ) (fact : Record) : Contribution σ :=
  ⟨plan.tuple fact.contents, arith.amounts plan fact.contents⟩

/-- What some facts bring to the grouping of a plan. -/
theorem contributions_eq {schema : Schema} (hschema : schema.WellFormed) {plan : Plan}
    (hplan : ∀ field ∈ plan.drilldowns, schema.HasField field)
    (members? : Option (Std.TreeSet String)) {records : List Record}
    (hrecords : ∀ record ∈ records, schema.IsFact record) :
    records.filterMap (contribution? arith plan members?) =
      (plan.grouped members? records).map (plan.contribute arith) := by
  induction records with
  | nil => rfl
  | cons record records ih =>
    rw [List.forall_mem_cons] at hrecords
    rw [List.filterMap_cons, ih hrecords.2, contribution?,
      Plan.groupKey_eq hplan (hrecords.1.admits hschema), Plan.grouped, Plan.grouped,
      List.filter_cons]
    cases isMember members? record.id && plan.selects record.contents with
    | false => rfl
    | true => cases plan.isBlankIn record.contents <;> rfl

/-- The tuple of a grouped fact fits the drilldowns. -/
theorem fits_of_mem_grouped {schema : Schema} (hschema : schema.WellFormed) {plan : Plan}
    (hplan : ∀ field ∈ plan.drilldowns, schema.HasField field)
    {members? : Option (Std.TreeSet String)} {records : List Record}
    (hrecords : ∀ record ∈ records, schema.IsFact record) {fact : Record}
    (hfact : fact ∈ plan.grouped members? records) :
    List.Forall₂ (fun field (value : Value) => value.Fits (schema.typeOf field))
      plan.drilldowns (plan.tuple fact.contents) := by
  rw [Plan.grouped, List.mem_filter, Bool.and_eq_true, Bool.not_eq_true'] at hfact
  have hadmits := (hrecords fact hfact.1).admits hschema
  apply Plan.fits_of_groupKey hadmits
  rw [Plan.groupKey_eq hplan hadmits, if_neg (by rw [hfact.2.2]; exact Bool.false_ne_true)]

/-- What a fact brings has a key of regular values. -/
theorem regular_of_contribution? {schema : Schema} (hschema : schema.WellFormed) {plan : Plan}
    {members? : Option (Std.TreeSet String)} {record : Record} (hrecord : schema.IsFact record)
    {c : Contribution σ} (h : contribution? arith plan members? record = some c) :
    ∀ value ∈ c.key, value.Regular := by
  rw [contribution?] at h
  split at h
  · obtain ⟨key, hkey, rfl⟩ := Option.map_eq_some_iff.1 h
    exact regular_of_fits (Plan.fits_of_groupKey (hrecord.admits hschema) hkey)
  · cases h

/-- A query that names no collection names no unknown one. -/
theorem Query.isSome_collection? {query : Query} (h : query.collection? = none) (store : Store)
    (name : String) (hname : query.collection? = some name) :
    (store.collection? name).isSome = true := by
  rw [h] at hname
  cases hname

/-! ## A sample -/

namespace Sample

/-- The query for the amounts by region. -/
def query : Query := { Query.all with drilldowns := ["region"] }

/-- The plan of the query. -/
def plan : Plan where
  drilldownNames := ["region"]
  drilldowns := [.scalar 1]
  cuts := []
  filters := []
  slice := []
  measures := [(2, "amount")]
  order := []
  page := 1
  pageSize? := none
  collection? := none

end Sample

end FactCube
