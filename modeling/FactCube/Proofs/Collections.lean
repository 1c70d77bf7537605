import FactCube.Cube.Collecting
import FactCube.Proofs.CollectionIds
import FactCube.Proofs.GroupBy
import FactCube.Proofs.Reordering

/-!
# Collected facts

Collecting puts the ids of the facts that a query selects into a collection. A later query can be
restricted to the collection, and then it considers the facts that both queries select. A collection
comes to be with its first id. So where a query selects nothing there is no collection afterwards,
and a query that names it fails instead of having an empty answer.

Results:
* `Aggregate.Considers`: what it means that an answer is over exactly some facts.
* `Store.aggregate_collected`: what queries restricted to a fresh collection answer.
* `Store.not_forall_aggregate_collected`: a collection that is unknown after collecting into it.
-/

namespace FactCube

/-- A query restricted to a collection. -/
def Query.within (query : Query) (name : String) : Query := { query with collection? := some name }

/-! ## Answers over some facts -/

variable {σ : Type} {arith : Arithmetic σ}

/-- Whether groups are those of some facts: taken by one worker, or by several, in parts one after
the other. -/
inductive IsGrouping (arith : Arithmetic σ) (plan : Plan) (facts : List Record) :
    Groups σ → Prop
  | whole : IsGrouping arith plan facts (foldRecords arith plan none facts)
  | parts (parts : List (List Record)) : parts.flatten = facts →
    IsGrouping arith plan facts
      (.ofPieces arith (parts.map (List.filterMap (contribution? arith plan none))))

/-- The facts that are blank in no drilldown of a plan. -/
def Plan.filled (plan : Plan) (facts : List Record) : List Record :=
  facts.filter fun fact => !plan.isBlankIn fact.contents

/-- Whether an answer considers exactly some facts: its groups are those of the facts, and it counts
all of them that are blank in no drilldown. One worker, or any number with an exact addition, gives
the group-by of these facts. -/
structure Aggregate.Considers (schema : Schema) (arith : Arithmetic σ) (plan : Plan)
    (workers : Nat) (facts : List Record) (answer : Aggregate σ) : Prop where
  grouping : ∃ groups, IsGrouping arith plan facts groups ∧ answer = .ofGroups arith plan groups
  count_eq : (∀ fact ∈ facts, schema.IsFact fact) →
    answer.summary.count = (plan.filled facts).length
  groups_eq : (∀ fact ∈ facts, schema.IsFact fact) → answer.summary.groups =
    ((plan.filled facts).map fun fact => plan.tuple fact.contents).dedup.length
  groupBy : (∀ fact ∈ facts, schema.IsFact fact) → workers ≤ 1 ∨ arith.IsExact →
    ∃ rows, IsGroupByAnswer arith plan (plan.filled facts) rows answer

namespace IsGrouping

variable {schema : Schema} {plan : Plan} {facts : List Record} {groups : Groups σ}

/-- The keys, the counts and the numbers of sums are those of one fold. -/
theorem shape_eq (h : IsGrouping arith plan facts groups) (hschema : schema.WellFormed)
    (hfacts : ∀ fact ∈ facts, schema.IsFact fact) :
    groups.toList.map (Prod.map id Tally.shape) =
      (foldRecords arith plan none facts).toList.map (Prod.map id Tally.shape) := by
  cases h with
  | whole => rfl
  | parts parts hparts =>
    rw [foldRecords, ← hparts, List.filterMap_flatten]
    rw [← hparts] at hfacts
    apply Groups.shape_ofPieces
    · rw [← List.filterMap_flatten]
      exact regular_of_mem_contributions hschema hfacts
    · rw [← List.filterMap_flatten]
      exact length_of_mem_contributions

/-- With an exact addition, the groups are those of one fold. -/
theorem toList_eq (h : IsGrouping arith plan facts groups) (hexact : arith.IsExact)
    (hschema : schema.WellFormed) (hfacts : ∀ fact ∈ facts, schema.IsFact fact) :
    groups.toList = (foldRecords arith plan none facts).toList := by
  cases h with
  | whole => rfl
  | parts parts hparts =>
    rw [foldRecords, ← hparts, List.filterMap_flatten]
    rw [← hparts] at hfacts
    apply Groups.toList_ofPieces hexact
    rw [← List.filterMap_flatten]
    exact regular_of_mem_contributions hschema hfacts

end IsGrouping

/-- Rows that differ in their sums only have the same counts. -/
theorem counts_eq_of_outline {rows other : List (GroupRow σ)}
    (h : rows.map GroupRow.outline = other.map GroupRow.outline) :
    rows.foldl (fun count row => count + row.count) 0 =
        other.foldl (fun count row => count + row.count) 0 ∧ rows.length = other.length := by
  constructor
  · have hcount := congrArg (List.foldl (fun count (row : GroupRow Unit) => count + row.count) 0) h
    rwa [List.foldl_map, List.foldl_map] at hcount
  · have hlength := congrArg List.length h
    rwa [List.length_map, List.length_map] at hlength

/-- The counts in an answer depend on the keys and the counts of the groups only. -/
theorem Aggregate.counts_ofGroups {plan : Plan} {groups other : Groups σ}
    (h : groups.toList.map (Prod.map id Tally.shape) = other.toList.map (Prod.map id Tally.shape)) :
    (ofGroups arith plan groups).summary.count = (ofGroups arith plan other).summary.count ∧
      (ofGroups arith plan groups).summary.groups =
        (ofGroups arith plan other).summary.groups :=
  counts_eq_of_outline (@outline_groupRows _ arith plan.measureNames.length _ _ h)

/-- The rows of one fold over facts are the group-by of those that are grouped. -/
theorem isGroupBy_foldRecords {schema : Schema} (hschema : schema.WellFormed) {plan : Plan}
    (hfields : ∀ field ∈ plan.drilldowns, schema.HasField field)
    (members? : Option (Std.TreeSet String)) {records : List Record}
    (hrecords : ∀ record ∈ records, schema.IsFact record) :
    IsGroupBy arith plan (plan.grouped members? records)
      (groupRows arith plan.measures.length (foldRecords arith plan members? records)) := by
  rw [foldRecords, contributions_eq hschema hfields members? hrecords]
  exact isGroupBy_groupRows fun _ hfact => fits_of_mem_grouped hschema hfields hrecords hfact

/-- With an exact addition, the rows of any number of workers are a group-by. -/
theorem isGroupBy_groupRecords (hexact : arith.IsExact) {schema : Schema}
    (hschema : schema.WellFormed) {plan : Plan}
    (hfields : ∀ field ∈ plan.drilldowns, schema.HasField field)
    (members? : Option (Std.TreeSet String)) {records : List Record}
    (hrecords : ∀ record ∈ records, schema.IsFact record) (workers : Nat) :
    IsGroupBy arith plan (plan.grouped members? records)
      (groupRows arith plan.measures.length
        (groupRecords arith plan members? workers records)) := by
  rw [groupRows, toList_groupRecords hexact hschema hrecords]
  exact isGroupBy_foldRecords hschema hfields members? hrecords

/-- The rows of any number of workers differ from a group-by in their sums only. -/
theorem exists_isGroupBy_groupRecords {schema : Schema} (hschema : schema.WellFormed) {plan : Plan}
    (hfields : ∀ field ∈ plan.drilldowns, schema.HasField field)
    (members? : Option (Std.TreeSet String)) {records : List Record}
    (hrecords : ∀ record ∈ records, schema.IsFact record) (workers : Nat) :
    ∃ rows, IsGroupBy arith plan (plan.grouped members? records) rows ∧
      (groupRows arith plan.measures.length
          (groupRecords arith plan members? workers records)).map GroupRow.outline =
        rows.map GroupRow.outline :=
  ⟨_, isGroupBy_foldRecords hschema hfields members? hrecords,
    outline_groupRows (shape_groupRecords hschema hrecords workers)⟩

theorem keys_eq_of_outline {rows other : List (GroupRow σ)}
    (h : rows.map GroupRow.outline = other.map GroupRow.outline) :
    rows.map GroupRow.keys = other.map GroupRow.keys := by
  have hmap := congrArg (List.map GroupRow.keys) h
  rwa [List.map_map, List.map_map] at hmap

/-- The rows of any number of workers ascend strictly by their keys. -/
theorem pairwise_groupRecords {schema : Schema} (hschema : schema.WellFormed) {plan : Plan}
    (hfields : ∀ field ∈ plan.drilldowns, schema.HasField field)
    (members? : Option (Std.TreeSet String)) {records : List Record}
    (hrecords : ∀ record ∈ records, schema.IsFact record) (workers : Nat) :
    (groupRows arith plan.measures.length
      (groupRecords arith plan members? workers records)).Pairwise
        fun a b => Value.compareLists a.keys b.keys = .lt := by
  obtain ⟨rows, hrows, houtline⟩ :=
    @exists_isGroupBy_groupRecords _ arith _ hschema _ hfields members? _ hrecords workers
  have hkeys : (rows.map GroupRow.keys).Pairwise fun a b => Value.compareLists a b = .lt :=
    List.pairwise_map.2 hrows.ascending
  rw [← keys_eq_of_outline houtline] at hkeys
  exact List.pairwise_map.1 hkeys

/-- A row that differs from one of a group-by in its sums only counts the facts of its keys, and
there is one. -/
theorem IsGroupBy.exists_fact {plan : Plan} {facts : List Record} {rows other : List (GroupRow σ)}
    (h : IsGroupBy arith plan facts other)
    (houtline : rows.map GroupRow.outline = other.map GroupRow.outline) {row : GroupRow σ}
    (hrow : row ∈ rows) :
    ∃ fact ∈ facts, row.keys = plan.tuple fact.contents ∧
      row.count = (plan.factsAt facts row.keys).length := by
  have hmem : row.outline ∈ other.map GroupRow.outline := by
    rw [← houtline]
    exact List.mem_map_of_mem hrow
  obtain ⟨row', hrow', heq⟩ := List.mem_map.1 hmem
  obtain ⟨fact, hfact, rfl⟩ := (h.mem_iff row').1 hrow'
  have hkeys : plan.tuple fact.contents = row.keys := congrArg GroupRow.keys heq
  refine ⟨fact, hfact, hkeys.symm, ?_⟩
  rw [← hkeys]
  exact (congrArg GroupRow.count heq).symm

/-- One fold over facts that a plan selects is answered by their group-by. -/
theorem isGroupByAnswer_foldRecords {schema : Schema} (hschema : schema.WellFormed)
    {query : Query} {plan : Plan} (hplan : query.plan schema = .ok plan) {facts : List Record}
    (hselected : ∀ fact ∈ facts, plan.selects fact.contents = true)
    (hfacts : ∀ fact ∈ facts, schema.IsFact fact) :
    ∃ rows, IsGroupByAnswer arith plan (plan.filled facts) rows
      (.ofGroups arith plan (foldRecords arith plan none facts)) := by
  have hresolved := Query.resolved_of_plan hplan
  have hfields : ∀ field ∈ plan.drilldowns, schema.HasField field := fun _ => hresolved.hasField
  have hgrouped : plan.grouped none facts = plan.filled facts :=
    List.filter_congr fun fact hfact => by rw [hselected fact hfact]; rfl
  refine ⟨_, Store.isGroupByAnswer_ofGroups ?_ fun _ hm _ hn => hresolved.index_eq hschema hm hn⟩
  rw [← hgrouped]
  exact isGroupBy_foldRecords hschema hfields none hfacts

/-- An answer over groups of facts that its plan selects considers exactly these facts. -/
theorem considers_ofGroups {schema : Schema} (hschema : schema.WellFormed)
    {query : Query} {plan : Plan} (hplan : query.plan schema = .ok plan) {facts : List Record}
    (hselected : ∀ fact ∈ facts, plan.selects fact.contents = true) {workers : Nat}
    {groups : Groups σ} (hgroups : IsGrouping arith plan facts groups)
    (hone : workers ≤ 1 → groups = foldRecords arith plan none facts) :
    Aggregate.Considers schema arith plan workers facts (.ofGroups arith plan groups) := by
  constructor
  · exact ⟨groups, hgroups, rfl⟩
  · intro hfacts
    obtain ⟨rows, hrows⟩ :=
      @isGroupByAnswer_foldRecords _ arith _ hschema _ _ hplan _ hselected hfacts
    rw [(Aggregate.counts_ofGroups (hgroups.shape_eq hschema hfacts)).1, hrows.count_eq]
  · intro hfacts
    obtain ⟨rows, hrows⟩ :=
      @isGroupByAnswer_foldRecords _ arith _ hschema _ _ hplan _ hselected hfacts
    rw [(Aggregate.counts_ofGroups (hgroups.shape_eq hschema hfacts)).2, hrows.groups_eq]
  · intro hfacts hworkers
    have hlist : groups.toList = (foldRecords arith plan none facts).toList := by
      rcases hworkers with hworkers | hexact
      · rw [hone hworkers]
      · exact hgroups.toList_eq hexact hschema hfacts
    rw [Aggregate.ofGroups_congr hlist]
    exact isGroupByAnswer_foldRecords hschema hplan hselected hfacts

/-! ## Contributions of members -/

/-- Where members are told by a test, records bring what those that pass it bring. -/
theorem filterMap_contribution? {plan : Plan} {members? : Option (Std.TreeSet String)}
    {keep : Record → Bool} {records : List Record}
    (hmembers : ∀ record ∈ records, isMember members? record.id = keep record) :
    records.filterMap (contribution? arith plan members?) =
      (records.filter fun record => keep record && plan.selects record.contents).filterMap
        (contribution? arith plan none) := by
  rw [List.filterMap_filter]
  refine List.filterMap_congr fun record hrecord => ?_
  rw [contribution?, hmembers record hrecord]
  cases hkept : keep record && plan.selects record.contents with
  | false => rfl
  | true =>
    rw [Bool.and_eq_true] at hkept
    rw [if_pos rfl, if_pos rfl, contribution?, hkept.2]
    rfl

/-- Grouping the members of some records groups those that pass the test. -/
theorem isGrouping_groupRecords {plan : Plan} {members? : Option (Std.TreeSet String)}
    {keep : Record → Bool} {records : List Record}
    (hmembers : ∀ record ∈ records, isMember members? record.id = keep record) (workers : Nat) :
    IsGrouping arith plan
        (records.filter fun record => keep record && plan.selects record.contents)
        (groupRecords arith plan members? workers records) ∧
      (workers ≤ 1 → groupRecords arith plan members? workers records =
        foldRecords arith plan none
          (records.filter fun record => keep record && plan.selects record.contents)) := by
  have hfold : foldRecords arith plan members? records = foldRecords arith plan none
      (records.filter fun record => keep record && plan.selects record.contents) := by
    rw [foldRecords, foldRecords, filterMap_contribution? hmembers]
  by_cases h : workers ≤ 1 ∨ records.length < 2 * leastPiece
  · rw [groupRecords_of_few h, hfold]
    exact ⟨.whole, fun _ => rfl⟩
  · refine ⟨?_, fun hone => absurd (.inl hone) h⟩
    have hflatten := (isCut_pieces workers records).flatten_eq
    have hpieces : (pieces workers records).map
        (List.filterMap (contribution? arith plan members?)) =
          ((pieces workers records).map (List.filter fun record =>
            keep record && plan.selects record.contents)).map
              (List.filterMap (contribution? arith plan none)) := by
      rw [List.map_map]
      refine List.map_congr_left fun piece hpiece => ?_
      refine filterMap_contribution? fun record hrecord => hmembers record ?_
      rw [← hflatten]
      exact List.mem_flatten_of_mem hpiece hrecord
    rw [groupRecords_of_many h, hpieces]
    apply IsGrouping.parts
    rw [← List.filter_flatten, hflatten]

/-! ## Collecting -/

/-- The plan of a query restricted to a collection. -/
theorem Query.plan_within {schema : Schema} {query : Query} {plan : Plan}
    (h : query.plan schema = .ok plan) (name : String) :
    (query.within name).plan schema = .ok { plan with collection? := some name } := by
  have hresolved := Query.resolved_of_plan h
  exact IsResolved.plan_eq { hresolved with collection? := rfl }

/-- The plan of the query for the sum of all facts. -/
def Plan.all (schema : Schema) : Plan where
  drilldownNames := []
  drilldowns := []
  cuts := []
  filters := []
  slice := []
  measures := Query.allMeasures schema
  order := []
  page := 1
  pageSize? := none
  collection? := none

theorem Query.plan_all (schema : Schema) : Query.all.plan schema = .ok (.all schema) := rfl

namespace Store

/-- The facts that a plan can see and selects, in the order of the store. -/
def matching (store : Store) (plan : Plan) : List Record :=
  store.toList.filter fun record => store.isVisible plan record && plan.selects record.contents

/-- What is left of a store after the facts that a plan selects were put into a collection, and what
later queries restricted to this collection answer. -/
structure IsCollected (schema : Schema) (store : Store) (plan : Plan) (name : String)
    (after : Store) : Prop where
  toList_eq : after.toList = store.toList
  eq_of_nil : store.matching plan = [] → after = store
  /-- If nothing was selected, the collection is unknown. -/
  unknown : store.matching plan = [] →
    ∀ {later : Query} {laterPlan : Plan}, later.plan schema = .ok laterPlan →
      ∀ {σ : Type} (arith : Arithmetic σ) (workers : Nat),
        after.aggregateWith arith schema workers (later.within name) =
          .error (.unknownCollection name)
  /-- If something was selected, a later query considers exactly the facts that both select. -/
  considers : store.matching plan ≠ [] →
    ∀ {later : Query} {laterPlan : Plan}, later.plan schema = .ok laterPlan →
      ∀ {σ : Type} (arith : Arithmetic σ) (workers : Nat),
        ∃ answer, after.aggregateWith arith schema workers (later.within name) = .ok answer ∧
          answer.Considers schema arith laterPlan workers
            ((store.matching plan).filter fun record => laterPlan.selects record.contents)
  /-- The query for all facts counts those that were selected. -/
  count_all : store.matching plan ≠ [] → (∀ record ∈ store.toList, schema.IsFact record) →
    ∀ {σ : Type} (arith : Arithmetic σ) (workers : Nat),
      ∃ answer, after.aggregateWith arith schema workers (Query.all.within name) = .ok answer ∧
        answer.summary.count = (store.matching plan).length

theorem selectedIds_eq {store : Store} {plan : Plan} {members? : Option (Std.TreeSet String)}
    (hvisible : ∀ record : Record, isMember members? record.id = store.isVisible plan record) :
    store.selectedIds plan members? = (store.matching plan).map Record.id := by
  simp only [selectedIds, matching, hvisible]

/-- Ids tell the records of a reachable store apart, so an id of a selected record is that of no
other. -/
theorem mem_map_id_matching_iff {store : Store} (hstore : store.Reachable) (plan : Plan)
    {record : Record} (hrecord : record ∈ store.toList) :
    record.id ∈ (store.matching plan).map Record.id ↔
      (store.isVisible plan record && plan.selects record.contents) = true := by
  rw [List.mem_map]
  constructor
  · rintro ⟨other, hother, hid⟩
    obtain ⟨hmem, hselected⟩ := List.mem_filter.1 hother
    obtain rfl := List.inj_on_of_nodup_map hstore.wellIndexed.nodup_ids hmem hrecord hid
    exact hselected
  · exact fun h => ⟨record, List.mem_filter.2 ⟨hrecord, h⟩, rfl⟩

theorem aggregateWith_of_plan {store : Store} {schema : Schema} {query : Query} {plan : Plan}
    (hplan : query.plan schema = .ok plan) (arith : Arithmetic σ) (workers : Nat) :
    store.aggregateWith arith schema workers query =
      (store.membersFor plan).map fun members? =>
        .ofGroups arith plan (groupRecords arith plan members? workers store.toList) := by
  rw [aggregateWith, hplan]
  show (store.membersFor plan >>= _) = _
  cases store.membersFor plan <;> rfl

/-- Where a query has a plan and the collection it is restricted to is known, collecting adds the ids
of the facts that it selects. -/
theorem collect_of_plan {store : Store} {schema : Schema} {query : Query} {plan : Plan}
    (hplan : query.plan schema = .ok plan)
    (hown : ∀ own, query.collection? = some own → (store.collection? own).isSome = true)
    (name : String) :
    store.collect schema query name =
      .ok (store.addAll name ((store.matching plan).map Record.id)) := by
  rw [← (Query.resolved_of_plan hplan).collection?] at hown
  obtain ⟨members?, hmembers, hvisible⟩ := exists_membersFor hown
  rw [collect, hplan, ← selectedIds_eq hvisible]
  show (store.membersFor plan >>= _) = _
  rw [hmembers]
  rfl

/-- Collecting into a fresh collection puts every selected fact into it and leaves the records as
they are. -/
theorem collect_spec {schema : Schema} {store : Store} (hstore : store.Reachable) {query : Query}
    {plan : Plan} (hplan : query.plan schema = .ok plan)
    (hown : ∀ own, query.collection? = some own → (store.collection? own).isSome = true)
    {name : String} (hfresh : store.collection? name = none) :
    store.collect schema query name = .ok ((store.matching plan).length,
      (store.addAll name ((store.matching plan).map Record.id)).2) := by
  have hnodup : ((store.matching plan).map Record.id).Nodup :=
    hstore.wellIndexed.nodup_ids.sublist (List.filter_sublist.map _)
  have hadded : (store.addAll name ((store.matching plan).map Record.id)).1 =
      (store.matching plan).length := by
    rw [(isExtended_addAll store name _).added_eq, idsIn_of_none hfresh, Finset.sdiff_empty,
      List.toFinset_card_of_nodup hnodup, List.length_map]
  rw [collect_of_plan hplan hown, ← hadded]

/-- A query restricted to an absent collection fails. -/
theorem aggregateWith_within_of_none {store : Store} {schema : Schema} {later : Query}
    {laterPlan : Plan} (hlater : later.plan schema = .ok laterPlan) {name : String}
    (hnone : store.collection? name = none) (arith : Arithmetic σ) (workers : Nat) :
    store.aggregateWith arith schema workers (later.within name) =
      .error (.unknownCollection name) := by
  have hunknown : store.membersFor { laterPlan with collection? := some name } =
      .error (.unknownCollection name) := by simp only [membersFor, hnone]
  rw [aggregateWith_of_plan (Query.plan_within hlater name), hunknown]
  rfl

/-- A query restricted to the collected facts of a plan considers those that it selects too. -/
theorem exists_considers_addAll {schema : Schema} (hschema : schema.WellFormed) {store : Store}
    (hstore : store.Reachable) {plan : Plan} (hne : store.matching plan ≠ []) {name : String}
    (hfresh : store.collection? name = none) {later : Query} {laterPlan : Plan}
    (hlater : later.plan schema = .ok laterPlan) (arith : Arithmetic σ) (workers : Nat) :
    ∃ answer, (store.addAll name ((store.matching plan).map Record.id)).2.aggregateWith arith schema
        workers (later.within name) = .ok answer ∧
      answer.Considers schema arith laterPlan workers
        ((store.matching plan).filter fun record => laterPlan.selects record.contents) := by
  have hextended := isExtended_addAll store name ((store.matching plan).map Record.id)
  have hids : ((store.matching plan).map Record.id).toFinset.Nonempty := by
    rw [List.toFinset_nonempty_iff]
    exact List.map_eq_nil_iff.not.2 hne
  obtain ⟨members, hmembers⟩ := Option.isSome_iff_exists.1 (hextended.isSome_iff.2 (.inr hids))
  have hvisible : ∀ record ∈ store.toList, isMember (some members) record.id =
      (store.isVisible plan record && plan.selects record.contents) := by
    intro record hrecord
    rw [Bool.eq_iff_iff, ← mem_map_id_matching_iff hstore plan hrecord]
    show members.contains record.id = true ↔ _
    rw [← mem_idsIn_of_some hmembers, hextended.idsIn_eq, idsIn_of_none hfresh, Finset.empty_union,
      List.mem_toFinset]
  have hfacts : (store.matching plan).filter (fun record => laterPlan.selects record.contents) =
      store.toList.filter fun record =>
        (store.isVisible plan record && plan.selects record.contents) &&
          laterPlan.selects record.contents := by
    rw [matching, List.filter_filter]
    exact List.filter_congr fun record _ => Bool.and_comm _ _
  have hselected : ∀ fact ∈ (store.matching plan).filter
      (fun record => laterPlan.selects record.contents),
        laterPlan.selects fact.contents = true := fun fact hfact => (List.mem_filter.1 hfact).2
  have hgroups := @isGrouping_groupRecords _ arith laterPlan _ _ _ hvisible workers
  rw [← hfacts] at hgroups
  refine ⟨_, ?_, considers_ofGroups hschema hlater hselected hgroups.1 hgroups.2⟩
  have hknown : (store.addAll name ((store.matching plan).map Record.id)).2.membersFor
      { laterPlan with collection? := some name } = .ok (some members) := by
    simp only [membersFor, hmembers]
  rw [aggregateWith_of_plan (Query.plan_within hlater name), hknown, hextended.toList_eq]
  rfl

/-- After a query collected the facts it selects into a fresh collection, later queries restricted to
the collection consider exactly the facts that both select; if the query selected none, there is no
such collection. -/
theorem aggregate_collected {doc : Document} {schema : Schema} (hvalid : doc.validate = .ok schema)
    {store : Store} (hstore : store.Reachable) {query : Query} {plan : Plan}
    (hplan : query.plan schema = .ok plan)
    (hown : ∀ own, query.collection? = some own → (store.collection? own).isSome = true)
    {name : String} (hfresh : store.collection? name = none) :
    ∃ after, store.collect schema query name = .ok ((store.matching plan).length, after) ∧
      IsCollected schema store plan name after := by
  have hschema := Document.wellFormed_of_validate hvalid
  refine ⟨_, collect_spec hstore hplan hown hfresh, ?_⟩
  have hempty : store.matching plan = [] →
      (store.addAll name ((store.matching plan).map Record.id)).2 = store := by
    intro hnil
    rw [hnil]
    rfl
  constructor
  · exact (isExtended_addAll store name _).toList_eq
  · exact hempty
  · intro hnil later laterPlan hlater σ arith workers
    rw [hempty hnil]
    exact aggregateWith_within_of_none hlater hfresh arith workers
  · intro hne later laterPlan hlater σ arith workers
    exact exists_considers_addAll hschema hstore hne hfresh hlater arith workers
  · intro hne hfacts σ arith workers
    obtain ⟨answer, hanswer, hover⟩ := exists_considers_addAll hschema hstore hne hfresh
      (Query.plan_all schema) arith workers
    refine ⟨answer, hanswer, ?_⟩
    have hmatching : (store.matching plan).filter
        (fun record => (Plan.all schema).selects record.contents) = store.matching plan :=
      List.filter_eq_self.2 fun _ _ => rfl
    have hfilled : (Plan.all schema).filled (store.matching plan) = store.matching plan :=
      List.filter_eq_self.2 fun _ _ => rfl
    rw [hmatching] at hover
    rw [hover.count_eq fun fact hfact => hfacts fact (List.mem_filter.1 hfact).1, hfilled]

end Store

/-! ## Samples -/

namespace Sample

theorem collection?_store (keyed : Bool) (name : String) :
    (store keyed).collection? name = none := by
  rw [Store.collection?, store, Store.collections_extend]
  exact Std.TreeMap.getElem?_emptyc

/-- The facts of the store stand in the order in which they were put in. -/
theorem toList_store : (store true).toList =
    [fact true "a" "North" 5, fact true "b" "South" 2, fact true "c" "North" 3] :=
  Store.Reachable.empty.toList_extend (by decide +kernel)

/-- The query for the facts of the north. -/
def northQuery : Query := { Query.all with cuts := [⟨"region", "North"⟩] }

/-- The plan of the query. -/
def northPlan : Plan := { Plan.all (schema true) with cuts := [(.scalar 1, [.string "North"])] }

theorem matching_north : (store true).matching northPlan =
    [fact true "a" "North" 5, fact true "c" "North" 3] := by
  rw [Store.matching, toList_store]
  rfl

/-- The query for the facts with references from `b` on. -/
def lateQuery : Query := { Query.all with slice := [[⟨"ref", .greaterOrEqual, "b"⟩]] }

/-- The plan of the query. -/
def latePlan : Plan :=
  { Plan.all (schema true) with
    slice := [[⟨.scalar 0, .compare .greaterOrEqual (.string "b")⟩]] }

/-- The query for the facts of a region without facts. -/
def absentQuery : Query := { Query.all with cuts := [⟨"region", "West"⟩] }

/-- The plan of the query. -/
def absentPlan : Plan := { Plan.all (schema true) with cuts := [(.scalar 1, [.string "West"])] }

theorem matching_absent : (store true).matching absentPlan = [] := by
  have hnone : ∀ record ∈ (store true).toList, absentPlan.selects record.contents = false := by
    refine Store.Reachable.empty.forall_mem_extend (List.forall_mem_nil _) fun record hrecord => ?_
    simp only [List.mem_cons, List.not_mem_nil, or_false] at hrecord
    rcases hrecord with rfl | rfl | rfl <;> rfl
  refine List.filter_eq_nil_iff.2 fun record hrecord => ?_
  rw [hnone record hrecord, Bool.and_false]
  exact Bool.false_ne_true

end Sample

namespace Store

/-- The facts of the north are collected, and a later query considers those of them that it selects
too. -/
theorem aggregate_collected_sample :
    (Sample.document true).validate = .ok (Sample.schema true) ∧
      (Sample.store true).Reachable ∧
      Sample.northQuery.plan (Sample.schema true) = .ok Sample.northPlan ∧
      (∀ own, Sample.northQuery.collection? = some own →
        ((Sample.store true).collection? own).isSome = true) ∧
      (Sample.store true).collection? "north" = none ∧
      ∃ after,
        (Sample.store true).collect (Sample.schema true) Sample.northQuery "north" =
          .ok (2, after) ∧
        IsCollected (Sample.schema true) (Sample.store true) Sample.northPlan "north" after ∧
        ∃ answer,
          after.aggregateWith .binary64 (Sample.schema true) 1 (Sample.lateQuery.within "north") =
            .ok answer ∧
          answer.Considers (Sample.schema true) .binary64 Sample.latePlan 1
            [Sample.fact true "c" "North" 3] ∧
          answer.summary.count = 1 := by
  have hown : ∀ own, Sample.northQuery.collection? = some own →
      ((Sample.store true).collection? own).isSome = true :=
    Query.isSome_collection? rfl _
  have hfresh := Sample.collection?_store true "north"
  obtain ⟨after, hcollect, hcollected⟩ :=
    aggregate_collected (Sample.validate true) (Sample.reachable_store true)
      (show Sample.northQuery.plan (Sample.schema true) = .ok Sample.northPlan from rfl) hown hfresh
  rw [Sample.matching_north] at hcollect
  have hplan : Sample.lateQuery.plan (Sample.schema true) = .ok Sample.latePlan := rfl
  have hsome : (Sample.store true).matching Sample.northPlan ≠ [] := by
    rw [Sample.matching_north]
    exact List.cons_ne_nil _ _
  obtain ⟨answer, hanswer, hconsiders⟩ := hcollected.considers hsome hplan .binary64 1
  have hselected : ((Sample.store true).matching Sample.northPlan).filter
      (fun record => Sample.latePlan.selects record.contents) =
        [Sample.fact true "c" "North" 3] := by
    rw [Sample.matching_north]
    rfl
  rw [hselected] at hconsiders
  have hfacts : ∀ fact ∈ [Sample.fact true "c" "North" 3], (Sample.schema true).IsFact fact :=
    List.forall_mem_singleton.2 (Sample.isFact_facts true _ (by simp))
  exact ⟨Sample.validate true, Sample.reachable_store true, rfl, hown, hfresh, after, hcollect,
    hcollected, answer, hanswer, hconsiders, hconsiders.count_eq hfacts⟩

/-- A query over the facts that a query without facts collected fails. -/
theorem not_forall_aggregate_collected :
    ¬ ∀ (doc : Document) (schema : Schema) (store after : Store) (query later : Query)
        (plan laterPlan : Plan) (name : String) (added : Nat),
      doc.validate = .ok schema → store.Reachable →
      (∀ record ∈ store.toList, schema.IsFact record) → query.plan schema = .ok plan →
      (∀ own, query.collection? = some own → (store.collection? own).isSome = true) →
      store.collection? name = none → store.collect schema query name = .ok (added, after) →
      later.collection? = none → later.plan schema = .ok laterPlan →
      ∃ answer, after.aggregate schema 1 (later.within name) = .ok answer := by
  intro h
  have hfresh := Sample.collection?_store true "west"
  have hplan : Sample.absentQuery.plan (Sample.schema true) = .ok Sample.absentPlan := rfl
  have hown : ∀ own, Sample.absentQuery.collection? = some own →
      ((Sample.store true).collection? own).isSome = true :=
    Query.isSome_collection? rfl _
  have hcollect := collect_spec (Sample.reachable_store true) hplan hown hfresh
  rw [Sample.matching_absent] at hcollect
  obtain ⟨answer, hanswer⟩ := h _ _ _ _ _ _ _ _ _ _ (Sample.validate true)
    (Sample.reachable_store true) (Sample.isFact_store true) hplan hown hfresh hcollect rfl
    (Query.plan_all _)
  have hfault := aggregateWith_within_of_none (Query.plan_all (Sample.schema true)) hfresh
    .binary64 1
  rw [aggregate] at hanswer
  cases hfault.symm.trans hanswer

end Store

end FactCube
