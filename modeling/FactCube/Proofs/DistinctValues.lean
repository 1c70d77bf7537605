import FactCube.Proofs.Columns
import FactCube.Proofs.RollUps

/-!
# Distinct values

The values at a field can be asked for in two ways: they are listed, or they are the keys of a query
that only drills down on the field. A list is made of a set of values, in the order that keys groups,
and a key is found by grouping all facts. Both leave out blank values, and both ascend strictly. So
they agree value by value, and both fail at a path that names no field.

Results:
* `Query.plan_drilled_all`: the plan of the query that only drills down on a field.
* `Plan.exists_tuple_iff`: the keys of facts that are not blank there.
* `Store.distinct_eq_keys`: the values that are listed are the keys of the drilldown.
-/

namespace FactCube

variable {σ : Type} {arith : Arithmetic σ}

/-! ## The query that only drills down -/

section Plans

variable {schema : Schema} {path : String} {field : Field}

/-- The plan of the query that only drills down on a field. -/
theorem Query.plan_drilled_all (hpath : schema.resolve? path = some field) :
    (Query.all.drilled path).plan schema = .ok ((Plan.all schema).drilled path field) :=
  plan_drilled (plan_all schema) rfl hpath

/-- The query fails at a path that names no field. -/
theorem Query.plan_drilled_all_of_none (hpath : schema.resolve? path = none) :
    (Query.all.drilled path).plan schema = .error (.unknownField path) := by
  have hresolve : resolve schema path = .error (.unknownField path) := by rw [resolve, hpath]
  have hdrilldowns : (Query.all.drilled path).drilldowns.mapM (resolve schema) =
      .error (.unknownField path) := by
    show [path].mapM (resolve schema) = _
    rw [Outcome.mapM_cons, hresolve]
    rfl
  rw [plan, hdrilldowns]
  rfl

theorem Query.isWhole_drilled_all (path : String) : (Query.all.drilled path).IsWhole :=
  ⟨rfl, le_rfl, rfl⟩

end Plans

/-! ## Keys of one value -/

section Keys

variable {schema : Schema} {path : String} {field : Field} {facts : List Record}

theorem Plan.keyAt_eq_some_iff {contents : Contents} {v : Value} :
    keyAt contents field = some v ↔ valueAt contents field = some v ∧ v.isBlank = false := by
  rw [keyAt, Option.filter_eq_some_iff, Bool.not_eq_true']

/-- The facts that are grouped have the values that are listed as their keys. -/
theorem Plan.exists_tuple_iff (hvalues : ∀ fact ∈ facts, ∃ v, valueAt fact.contents field = some v)
    (keys : List Value) :
    (∃ fact ∈ ((Plan.all schema).drilled path field).grouped none facts,
        ((Plan.all schema).drilled path field).tuple fact.contents = keys) ↔
      ∃ v, (∃ fact ∈ facts, keyAt fact.contents field = some v) ∧ [v] = keys := by
  have htuple : ∀ (fact : Record) (v : Value), valueAt fact.contents field = some v →
      ((Plan.all schema).drilled path field).tuple fact.contents = [v] :=
    fun fact v hv => tuple_drilled hv
  have hall : (Plan.all schema).grouped none facts = facts :=
    List.filter_eq_self.2 fun _ _ => rfl
  rw [grouped_drilled, hall]
  simp only [List.mem_filter, Bool.not_eq_true']
  constructor
  · rintro ⟨fact, ⟨hfact, hfilled⟩, rfl⟩
    obtain ⟨v, hv⟩ := hvalues fact hfact
    rw [Record.isBlankAt, Record.value?, hv, Option.any_some] at hfilled
    exact ⟨v, ⟨fact, hfact, keyAt_eq_some_iff.2 ⟨hv, hfilled⟩⟩, (htuple fact v hv).symm⟩
  · rintro ⟨v, ⟨fact, hfact, hkey⟩, rfl⟩
    obtain ⟨hv, hfilled⟩ := keyAt_eq_some_iff.1 hkey
    refine ⟨fact, ⟨hfact, ?_⟩, htuple fact v hv⟩
    rwa [Record.isBlankAt, Record.value?, hv, Option.any_some]

theorem Value.compareLists_singleton (a b : Value) : compareLists [a] [b] = a.compare b := by
  rw [compareLists, List.compareLex_cons_cons, List.compareLex_nil_nil, Ordering.then_eq]

/-- Values that list the cells of a field are the keys of a group-by there. -/
theorem IsListing.keys_eq {values : List Value} (h : IsListing facts field values)
    (hvalues : ∀ fact ∈ facts, ∃ v, valueAt fact.contents field = some v)
    {rows : List (GroupRow σ)}
    (hrows : IsGroupBy arith ((Plan.all schema).drilled path field)
      (((Plan.all schema).drilled path field).grouped none facts) rows) :
    rows.map GroupRow.keys = values.map fun v => [v] := by
  refine hrows.keys_eq_of_ascending ?_ fun keys => ?_
  · rw [List.pairwise_map]
    refine h.ascending.imp fun {a b} hlt => ?_
    rwa [Value.compareLists_singleton]
  · rw [Plan.exists_tuple_iff hvalues, List.mem_map]
    simp only [h.mem_iff]

end Keys

namespace Store

/-! ## Listing and drilling down -/

/-- How the values at a path are listed, and how the query answers that only drills down there. -/
structure IsListedByDrilldown (arith : Arithmetic σ) (schema : Schema) (store : Store)
    (workers : Nat) (path : String) : Prop where
  /-- The keys of the rows are the values that are listed, in the same order, or both fail with the
  same fault. -/
  keys_eq :
    ((store.aggregateWith arith schema workers (Query.all.drilled path)).map fun answer =>
        answer.rows.map GroupRow.keys) =
      (store.distinct schema path).map (List.map fun v => [v])
  unknown : schema.resolve? path = none →
    store.distinct schema path = .error (.unknownField path) ∧
      store.aggregateWith arith schema workers (Query.all.drilled path) =
        .error (.unknownField path)
  /-- The values at a field are those that facts have there and that are not blank, each once and
  strictly ascending. -/
  listing : ∀ field, schema.resolve? path = some field →
    ∃ values, store.distinct schema path = .ok values ∧ IsListing store.toList field values

variable {doc : Document} {schema : Schema} {store : Store} {path : String} {field : Field}

theorem distinct_of_field (hpath : schema.resolve? path = some field) :
    store.distinct schema path = .ok (store.distinctAt field) := by
  rw [distinct, Query.resolve, hpath]
  rfl

theorem distinct_of_none (hpath : schema.resolve? path = none) :
    store.distinct schema path = .error (.unknownField path) := by
  rw [distinct, Query.resolve, hpath]
  rfl

theorem aggregateWith_drilled_all_of_none (hpath : schema.resolve? path = none)
    (arith : Arithmetic σ) (workers : Nat) :
    store.aggregateWith arith schema workers (Query.all.drilled path) =
      .error (.unknownField path) := by
  rw [aggregateWith, Query.plan_drilled_all_of_none hpath]
  rfl

/-- The query that only drills down on a field has the values there as the keys of its rows. -/
theorem exists_aggregateWith_drilled_all (hvalid : doc.validate = .ok schema)
    (hfacts : ∀ record ∈ store.toList, schema.IsFact record)
    (hpath : schema.resolve? path = some field) {values : List Value}
    (hvalues : IsListing store.toList field values) (arith : Arithmetic σ) (workers : Nat) :
    ∃ answer, store.aggregateWith arith schema workers (Query.all.drilled path) = .ok answer ∧
      answer.rows.map GroupRow.keys = values.map fun v => [v] := by
  have hschema := Document.wellFormed_of_validate hvalid
  have hplan := Query.plan_drilled_all hpath
  obtain ⟨rows, hrows, houtline⟩ := @exists_isGroupBy_groupRecords _ arith _ hschema _
    (fun _ => (Query.resolved_of_plan hplan).hasField) none _ hfacts workers
  refine ⟨_, aggregateWith_of_plan hplan arith workers, ?_⟩
  rw [(Query.isWhole_drilled_all path).rows_ofGroups hplan, keys_eq_of_outline houtline]
  exact hvalues.keys_eq (fun fact hfact => exists_valueAt ((hfacts fact hfact).admits hschema)
    (Schema.hasField_of_resolve? hpath)) hrows

/-- The values that are listed for a path are the keys of the query that only drills down there. -/
theorem distinct_eq_keys (hvalid : doc.validate = .ok schema)
    (hfacts : ∀ record ∈ store.toList, schema.IsFact record) (arith : Arithmetic σ)
    (workers : Nat) (path : String) : IsListedByDrilldown arith schema store workers path := by
  have hlisting : ∀ field, IsListing store.toList field (store.distinctAt field) :=
    fun field => isListing_distinctAt (isColumn_cellsAt hvalid hfacts field)
  constructor
  · cases hpath : schema.resolve? path with
    | none =>
      rw [distinct_of_none hpath, aggregateWith_drilled_all_of_none hpath]
      rfl
    | some field =>
      obtain ⟨answer, hanswer, hkeys⟩ :=
        exists_aggregateWith_drilled_all hvalid hfacts hpath (hlisting field) arith workers
      rw [distinct_of_field hpath, hanswer, Except.map, Except.map, hkeys]
  · exact fun hpath =>
      ⟨distinct_of_none hpath, aggregateWith_drilled_all_of_none hpath arith workers⟩
  · exact fun field hpath => ⟨_, distinct_of_field hpath, hlisting field⟩

/-- The recipients of payments, one of which has no name, with three workers; and a path that names
no field. -/
theorem distinct_eq_keys_sample :
    Sample.paymentsDocument.validate = .ok Sample.paymentsSchema ∧
      (∀ record ∈ Sample.anonymousStore.toList, Sample.paymentsSchema.IsFact record) ∧
      ∀ path ∈ ["to.name", "when.year"],
        IsListedByDrilldown .binary64 Sample.paymentsSchema Sample.anonymousStore 3 path :=
  ⟨Sample.validate_payments, Sample.isFact_anonymousStore, fun path _ =>
    distinct_eq_keys Sample.validate_payments Sample.isFact_anonymousStore .binary64 3 path⟩

end Store

end FactCube
