import FactCube.Proofs.Batches
import FactCube.Proofs.PlannedFacts
import FactCube.Proofs.Views

/-!
# Facts are well typed

A store that is built under a schema, by loads in any mode and by facts put in one by one, holds
nothing but facts of the schema. In each of them every field that a path names has a value of the
field's datatype. So whatever is asked of such a store, the amounts that are summed are numbers of
the facts, and a fact is left out of a grouping only because it is blank in a drilldown.

Results:
* `Store.Built.isFact`: a store built under a schema holds facts of the schema.
* `Schema.IsPlan.amounts`: what is summed for a fact are the numbers it holds for the measures.
* `isTyped_of_built`: the facts of a built store are well typed.
-/

namespace FactCube

/-! ## Built stores -/

namespace Store

/-- The stores built under a schema: from the empty one, by loads and by facts of the schema, with
changes of collections between them. -/
inductive Built (schema : Schema) : Store → Prop
  | empty : Built schema empty
  | load {store : Store} (mode : LoadMode) (workers : Nat) (rows : List Row) :
    Built schema store → Built schema ((loadRows schema mode workers rows).run store).2
  | upsert {store : Store} {record : Record} :
    Built schema store → schema.IsFact record → Built schema (store.upsert record).2
  | extend {store : Store} {records : List Record} :
    Built schema store → (∀ record ∈ records, schema.IsFact record) →
    Built schema (store.extend records)
  | clear {store : Store} : Built schema store → Built schema store.clear
  | addTo {store : Store} (name id : String) :
    Built schema store → Built schema (store.addTo name id).2
  | removeFrom {store : Store} (name id : String) :
    Built schema store → Built schema (store.removeFrom name id).2

variable {schema : Schema} {store : Store}

theorem forall_isFact_of_isLoad {rows : List Row} {outcome : Except LoadFault LoadReport}
    {after : Store} (h : IsLoad schema rows store outcome after)
    (hstore : ∀ record ∈ store.toList, schema.IsFact record) :
    ∀ record ∈ after.toList, schema.IsFact record := by
  cases h with
  | stopped => exact hstore
  | loaded hinserted =>
    intro record hrecord
    rw [hinserted.toList_eq] at hrecord
    rcases mem_putFacts hrecord with ⟨mapped, hmapped, hcontents⟩ | hrecord
    · obtain ⟨row, -, hrow⟩ := mem_mappedFacts.1 hmapped
      exact ⟨row, mapped, hrow, hcontents⟩
    · exact hstore record hrecord

theorem reachable_of_isLoad {rows : List Row} {outcome : Except LoadFault LoadReport}
    {after : Store} (h : IsLoad schema rows store outcome after) (hstore : store.Reachable) :
    after.Reachable := by
  cases h with
  | stopped => exact hstore
  | loaded hinserted => exact hinserted.reachable

theorem Built.reachable (h : Built schema store) : store.Reachable := by
  induction h with
  | empty => exact .empty
  | load mode workers rows _ ih =>
    exact reachable_of_isLoad (isLoad_loadRows schema mode workers rows ih) ih
  | upsert _ _ ih => exact .upsert _ ih
  | extend _ _ ih => exact ih.extend _
  | clear _ ih => exact .clear ih
  | addTo name id _ ih => exact .addTo name id ih
  | removeFrom name id _ ih => exact .removeFrom name id ih

/-- A store built under a schema holds facts of the schema. -/
theorem Built.isFact (h : Built schema store) :
    ∀ record ∈ store.toList, schema.IsFact record := by
  induction h with
  | empty => exact List.forall_mem_nil _
  | @load store mode workers rows hstore ih =>
    exact forall_isFact_of_isLoad (isLoad_loadRows schema mode workers rows hstore.reachable) ih
  | upsert hstore hrecord ih =>
    exact hstore.reachable.forall_mem_extend ih (List.forall_mem_singleton.2 hrecord)
  | extend hstore hrecords ih => exact hstore.reachable.forall_mem_extend ih hrecords
  | clear _ _ => exact List.forall_mem_nil _
  | addTo name id _ ih => exact ih
  | removeFrom name id _ ih =>
    rw [toList, (removeFrom_records _ name id).1]
    exact ih

end Store

/-! ## Plans of a dataset -/

/-- The breakdown of a view is a field of the schema. -/
theorem Document.hasField_breakdown {doc : Document} {schema : Schema}
    (h : doc.validate = .ok schema) {view : View} (hview : view ∈ schema.views) :
    schema.HasField view.breakdown :=
  Schema.hasField_of_resolve? (Document.wellFormed_view h hview).breakdown

/-- The plans that are run on a dataset: those of queries and those of its views. -/
inductive Schema.IsPlan (schema : Schema) : Plan → Prop
  | query {query : Query} {plan : Plan} : query.plan schema = .ok plan → IsPlan schema plan
  | view {view : View} {member? : Option String} {plan : Plan} :
    view ∈ schema.views → view.plan schema member? = .ok plan → IsPlan schema plan

theorem View.drilldowns_of_plan {schema : Schema} {view : View} {member? : Option String}
    {plan : Plan} (h : view.plan schema member? = .ok plan) :
    plan.drilldowns = [view.breakdown] ∧ plan.measures = Query.allMeasures schema ∧
      plan.cuts = [] := by
  rw [View.plan] at h
  simp only at h
  split at h
  · cases h
  · split at h <;>
      obtain ⟨ofMember, -, hplan⟩ := Outcome.bind_eq_ok_iff.1 h <;>
      cases hplan <;> exact ⟨rfl, rfl, rfl⟩

namespace Schema.IsPlan

variable {doc : Document} {schema : Schema} {plan : Plan}

/-- The drilldowns of a plan are fields of the schema. -/
theorem hasField (h : schema.IsPlan plan) (hvalid : doc.validate = .ok schema) :
    ∀ field ∈ plan.drilldowns, schema.HasField field := by
  intro field hfield
  cases h with
  | query hplan => exact (Query.resolved_of_plan hplan).hasField hfield
  | view hview hplan =>
    rw [(View.drilldowns_of_plan hplan).1, List.mem_singleton] at hfield
    rw [hfield]
    exact Document.hasField_breakdown hvalid hview

/-- The measures of a plan are measures of the schema. -/
theorem exists_measure (h : schema.IsPlan plan) {m : Nat × String} (hm : m ∈ plan.measures) :
    ∃ d, (m.1, d) ∈ schema.measures := by
  cases h with
  | query hplan =>
    obtain ⟨d, hd, -⟩ := (Query.resolved_of_plan hplan).exists_measure hm
    exact ⟨d, hd⟩
  | view _ hplan =>
    rw [(View.drilldowns_of_plan hplan).2.1, Query.allMeasures, List.mem_map] at hm
    obtain ⟨⟨index, d⟩, hd, rfl⟩ := hm
    exact ⟨d, hd⟩

end Schema.IsPlan

/-! ## Typed facts -/

theorem Value.exists_number {v : Value} (h : v.dataType.isNumeric = true) :
    ∃ x, v.number? = some x := by
  cases v with
  | integer n => exact ⟨_, rfl⟩
  | float x => exact ⟨x, rfl⟩
  | _ => cases h

theorem Value.isBlank_iff {v : Value} : v.isBlank = true ↔ v = .string "" := by
  cases v with
  | string s => rw [isBlank, String.isEmpty_iff, Value.string.injEq]
  | _ => simp [isBlank]

section Admitted

variable {doc : Document} {schema : Schema} {plan : Plan} {contents : Contents}

/-- A measure is a scalar dimension that holds numbers. -/
theorem exists_content_of_mem_measures (hvalid : doc.validate = .ok schema) {index : Nat}
    {d : Dimension} (h : (index, d) ∈ schema.measures) :
    ∃ datatype default?, schema.dimensions[index]? = some d ∧
      d.content = .scalar datatype default? ∧ datatype.isNumeric = true := by
  obtain ⟨hnumbered, hkind⟩ := List.mem_filter.1 h
  have hd := Schema.mem_numbered_iff.1 hnumbered
  obtain ⟨datatype, default?, hcontent, hnumeric⟩ :=
    (Document.isSuitable_of_validate hvalid (List.mem_of_getElem? hd)).measure (eq_of_beq hkind)
  exact ⟨datatype, default?, hd, hcontent, hnumeric⟩

/-- Contents hold a number for every measure of a schema. -/
theorem exists_number_of_mem_measures (hvalid : doc.validate = .ok schema)
    (hcontents : schema.Admits contents) {index : Nat} {d : Dimension}
    (h : (index, d) ∈ schema.measures) :
    ∃ v x, valueAt contents (.scalar index) = some v ∧ v.number? = some x := by
  obtain ⟨datatype, default?, hd, hcontent, hnumeric⟩ := exists_content_of_mem_measures hvalid h
  obtain ⟨v, hv⟩ := exists_valueAt hcontents (.scalar hd hcontent)
  have htype := (fits_of_valueAt hcontents hv).dataType_eq
  rw [Schema.typeOf_scalar hd hcontent] at htype
  rw [← htype] at hnumeric
  obtain ⟨x, hx⟩ := Value.exists_number hnumeric
  exact ⟨v, x, hv, hx⟩

/-- What is summed for a fact are the numbers it holds for the measures. -/
theorem Schema.IsPlan.amounts (h : schema.IsPlan plan) (hvalid : doc.validate = .ok schema)
    (hcontents : schema.Admits contents) :
    List.Forall₂
      (fun m amount => ∃ v, valueAt contents (.scalar m.1) = some v ∧ v.number? = some amount)
      plan.measures (Arithmetic.binary64.amounts plan contents) := by
  rw [Arithmetic.amounts_eq, List.forall₂_map_right_iff, List.forall₂_same]
  intro m hm
  obtain ⟨d, hd⟩ := h.exists_measure hm
  obtain ⟨v, x, hv, hx⟩ := exists_number_of_mem_measures hvalid hcontents hd
  have hamount : Arithmetic.binary64.amountOf m.1 contents = x := by
    rw [Arithmetic.amountOf, hv, Option.bind_some]
    show v.number?.getD _ = x
    rw [hx, Option.getD_some]
  exact ⟨v, hv, by rw [hamount, hx]⟩

/-- A fact has no key iff it is blank in a drilldown. -/
theorem Schema.IsPlan.groupKey_eq_none_iff (h : schema.IsPlan plan)
    (hvalid : doc.validate = .ok schema) (hcontents : schema.Admits contents) :
    plan.groupKey contents = none ↔
      ∃ field ∈ plan.drilldowns, valueAt contents field = some (.string "") := by
  have hblank : plan.isBlankIn contents = true ↔
      ∃ field ∈ plan.drilldowns, valueAt contents field = some (.string "") := by
    rw [Plan.isBlankIn, List.any_eq_true]
    refine exists_congr fun field => and_congr_right fun _ => ?_
    rw [Option.any_eq_true]
    constructor
    · rintro ⟨v, hv, hblank⟩
      rw [hv, Value.isBlank_iff.1 hblank]
    · exact fun hv => ⟨_, hv, rfl⟩
  rw [Plan.groupKey_eq (h.hasField hvalid) hcontents, ← hblank]
  split
  · rename_i hyes
    exact iff_of_true rfl hyes
  · rename_i hno
    exact iff_of_false (Option.some_ne_none _) hno

end Admitted

/-- Whether a record is well typed under a schema, as far as its values can be asked for. -/
structure Record.IsTyped (schema : Schema) (record : Record) : Prop where
  /-- Every field that a path names has a value, and the value has the field's datatype. -/
  value : ∀ path field, schema.resolve? path = some field →
    ∃ v, record.value? field = some v ∧ v.dataType = schema.typeOf field
  /-- Parts of dates are strings. -/
  datePart : ∀ path index part, schema.resolve? path = some (.datePart index part) →
    ∃ s, record.value? (.datePart index part) = some (.string s)
  /-- What is summed are numbers the record holds for the measures. -/
  amounts : ∀ plan, schema.IsPlan plan →
    List.Forall₂
      (fun m amount => ∃ v, record.value? (.scalar m.1) = some v ∧ v.number? = some amount)
      plan.measures (Arithmetic.binary64.amounts plan record.contents)
  /-- The record has a key unless it is blank in a drilldown. -/
  groupKey : ∀ plan, schema.IsPlan plan →
    (plan.groupKey record.contents = none ↔
      ∃ field ∈ plan.drilldowns, record.value? field = some (.string ""))

theorem Schema.IsFact.isTyped {doc : Document} {schema : Schema}
    (hvalid : doc.validate = .ok schema) {record : Record} (h : schema.IsFact record) :
    record.IsTyped schema := by
  have hadmits := h.admits (Document.wellFormed_of_validate hvalid)
  refine ⟨fun path field hpath => ?_, fun path index part hpath => ?_, fun plan hplan => ?_,
    fun plan hplan => ?_⟩
  · obtain ⟨v, hv⟩ := exists_valueAt hadmits (Schema.hasField_of_resolve? hpath)
    exact ⟨v, hv, (fits_of_valueAt hadmits hv).dataType_eq⟩
  · obtain ⟨v, hv⟩ := exists_valueAt hadmits (Schema.hasField_of_resolve? hpath)
    have hfits := fits_of_valueAt hadmits hv
    rw [Schema.typeOf_datePart] at hfits
    obtain ⟨s, rfl⟩ := hfits.exists_string
    exact ⟨s, hv⟩
  · exact hplan.amounts hvalid hadmits
  · exact hplan.groupKey_eq_none_iff hvalid hadmits

/-- Declared defaults are values of their datatypes, as are those of the slots of the schema, and
the facts of a store built under it are well typed. -/
theorem isTyped_of_built {doc : Document} {schema : Schema} (hvalid : doc.validate = .ok schema)
    {store : Store} (hstore : Store.Built schema store) :
    (∀ entry ∈ doc.dimensions, ∀ declared ∈ entry.2.defaults, ∀ literal,
      declared.2 = some literal →
        ∃ v, declaredDefault declared.1 declared.2 = some v ∧ v.dataType = declared.1) ∧
    (∀ slot ∈ Validation.slots schema.dimensions, ∀ v, slot.default? = some v →
      v.dataType = slot.datatype) ∧
    ∀ record ∈ store.toList, record.IsTyped schema := by
  refine ⟨fun entry hentry declared hdeclared literal hliteral => ?_, fun slot hslot v hv => ?_,
    fun record hrecord => (hstore.isFact record hrecord).isTyped hvalid⟩
  · obtain ⟨v, hv, hfits⟩ :=
      Document.exists_default_of_validate hvalid hentry hdeclared hliteral
    exact ⟨v, hv, hfits.dataType_eq⟩
  · have hsound := (Document.wellFormed_of_validate hvalid).slots_sound slot hslot
    exact (hsound.default_fits v hv).dataType_eq

theorem Sample.built_store (keyed : Bool) : Store.Built (schema keyed) (store keyed) :=
  .extend .empty (isFact_facts keyed)

/-- The second of these rows is skipped. -/
theorem isTyped_of_built_sample :
    (Sample.document true).validate = .ok (Sample.schema true) ∧
      ∀ record ∈ ((loadRows (Sample.schema true) .lenient 4
          [Sample.row "d" "North" "1", Sample.row "e" "" "2"]).run (Sample.store true)).2.toList,
        record.IsTyped (Sample.schema true) :=
  ⟨Sample.validate true,
    (isTyped_of_built (Sample.validate true) (.load _ _ _ (Sample.built_store true))).2.2⟩

end FactCube
