import FactCube.Proofs.Members

/-!
# Drilling down and rolling up

With one more drilldown, a query finds the same facts and splits each of its rows: the key of a fact
goes on with its value at the new field. Only a fact that is blank there has no key any more. So a
row of the coarser answer is the sum of the rows below it and of its facts that are blank at the new
field. The new field may be any, also one that is a drilldown already or a part of a date.

Results:
* `IsGroupBy.columnTotal_exact`: with an exact addition, a column of a group-by totals its facts.
* `IsGroupBy.below`: the rows below some keys are the group-by of the facts of these keys.
* `Store.aggregateWith_drilled`: the answer to a query with one more drilldown rolls up to the
  answer without it.
-/

namespace FactCube

variable {σ : Type} {arith : Arithmetic σ}

/-! ## One more drilldown -/

/-- The query with one more drilldown. -/
def Query.drilled (query : Query) (path : String) : Query :=
  { query with drilldowns := query.drilldowns ++ [path] }

/-- The plan with one more drilldown. -/
def Plan.drilled (plan : Plan) (path : String) (field : Field) : Plan :=
  { plan with
    drilldownNames := plan.drilldownNames ++ [path]
    drilldowns := plan.drilldowns ++ [field] }

/-- Whether a query asks for all rows, in the order of their keys. -/
structure Query.IsWhole (query : Query) : Prop where
  order : query.order = []
  page : query.page ≤ 1
  pageSize? : query.pageSize? = none

/-- Whether a fact is blank at a field. -/
def Record.isBlankAt (fact : Record) (field : Field) : Bool :=
  (fact.value? field).any Value.isBlank

/-! ## The specification -/

/-- The rows whose keys go on from the given ones by one more key. -/
def rowsBelow (rows : List (GroupRow σ)) (keys : List Value) : List (GroupRow σ) :=
  rows.filter fun row => row.keys.dropLast = keys

/-- The facts with a tuple of values that are blank at a field. -/
def Plan.blankAt (plan : Plan) (facts : List Record) (keys : List Value) (field : Field) :
    List Record :=
  (plan.factsAt facts keys).filter fun fact => fact.isBlankAt field

/-- Whether an answer rolls up to a coarser one with one drilldown less, where the plan of the
coarser one groups some facts. -/
structure Aggregate.RollsUpTo (arith : Arithmetic σ) (plan : Plan) (facts : List Record)
    (field : Field) (finer coarser : Aggregate σ) : Prop where
  measures_eq : finer.measures = coarser.measures
  nodup_keys : (coarser.rows.map GroupRow.keys).Nodup
  /-- A row counts what the rows below it count and its facts that are blank at the new field. -/
  count_eq : ∀ row ∈ coarser.rows, row.count =
    ((rowsBelow finer.rows row.keys).map GroupRow.count).sum +
      (plan.blankAt facts row.keys field).length
  /-- Every row of the finer answer is below a row of the coarser one. -/
  exists_row : ∀ part ∈ finer.rows, ∃ row ∈ coarser.rows, ∃ v : Value,
    v.isBlank = false ∧ part.keys = row.keys ++ [v]
  total_eq : arith.IsExact → ∀ row ∈ coarser.rows, ∀ (column : Nat) (m : Nat × String),
    plan.measures[column]? = some m → row.totals[column]? =
      some (arith.add (columnTotal arith (rowsBelow finer.rows row.keys) column)
        (arith.sumOf m.1 (plan.blankAt facts row.keys field)))
  /-- The counts of all facts differ by those that are blank at the new field. -/
  summary_count : coarser.summary.count =
    finer.summary.count + (facts.filter fun fact => fact.isBlankAt field).length
  summary_total : arith.IsExact → ∀ m ∈ plan.measures, ∃ total,
    (m.2, total) ∈ finer.summary.totals ∧
      (m.2, arith.add total (arith.sumOf m.1 (facts.filter fun fact => fact.isBlankAt field))) ∈
        coarser.summary.totals
  /-- If no fact is blank there, both answers are about the same facts. -/
  summary_eq : (∀ fact ∈ facts, fact.isBlankAt field = false) →
    coarser.summary.count = finer.summary.count ∧
      (arith.IsExact → coarser.summary.totals = finer.summary.totals)

/-! ## Group-bys -/

namespace IsGroupBy

variable {plan : Plan} {facts : List Record} {rows : List (GroupRow σ)}

/-- The facts of all rows together are the facts. -/
theorem perm_flatMap_factsAt (h : IsGroupBy arith plan facts rows) :
    (rows.flatMap fun row => plan.factsAt facts row.keys).Perm facts := by
  have hkeys : (rows.flatMap fun row => plan.factsAt facts row.keys) =
      (rows.map GroupRow.keys).flatMap fun keys =>
        facts.filter fun fact => some (plan.tuple fact.contents) = some keys := by
    simp only [List.flatMap_map, Option.some.injEq]
    rfl
  rw [hkeys]
  refine perm_flatMap_filter h.nodup_keys fun fact hfact => ⟨_, ?_, rfl⟩
  rw [h.perm_keys.mem_iff, List.mem_dedup]
  exact List.mem_map_of_mem hfact

/-- With an exact addition, a column of a group-by totals its facts. -/
theorem columnTotal_exact (hexact : arith.IsExact) (h : IsGroupBy arith plan facts rows)
    {column : Nat} {m : Nat × String} (hm : plan.measures[column]? = some m) :
    columnTotal arith rows column = arith.sumOf m.1 facts := by
  rw [columnTotal_eq h hm, Plan.totalOf, ← hexact.sumOf_flatMap]
  exact hexact.sumOf_perm m.1 h.perm_flatMap_factsAt

end IsGroupBy

/-! ## Keys that go on -/

section Drilled

variable {schema : Schema} {plan : Plan} {path : String} {field : Field} {facts : List Record}

theorem Plan.tuple_drilled {contents : Contents} {v : Value}
    (hv : valueAt contents field = some v) :
    (plan.drilled path field).tuple contents = plan.tuple contents ++ [v] := by
  rw [tuple, drilled, List.filterMap_append, List.filterMap_cons_some hv, List.filterMap_nil, tuple]

/-- With one more drilldown, the facts that are blank there are left out. -/
theorem Plan.grouped_drilled (members? : Option (Std.TreeSet String)) (records : List Record) :
    (plan.drilled path field).grouped members? records =
      (plan.grouped members? records).filter fun fact => !fact.isBlankAt field := by
  have hblank : ∀ record : Record, (plan.drilled path field).isBlankIn record.contents =
      (plan.isBlankIn record.contents || record.isBlankAt field) := by
    intro record
    rw [isBlankIn, drilled, List.any_append, List.any_cons, List.any_nil, Bool.or_false]
    rfl
  rw [grouped, grouped, List.filter_filter]
  refine List.filter_congr fun record _ => ?_
  rw [hblank, Bool.not_or, ← Bool.and_assoc, Bool.and_comm (!record.isBlankAt field)]
  rfl

/-- The facts of a longer key are found among those of the shorter one. -/
theorem Plan.factsAt_factsAt (hvalues : ∀ fact ∈ facts, ∃ v, valueAt fact.contents field = some v)
    (keys : List Value) :
    (plan.drilled path field).factsAt (plan.factsAt facts keys.dropLast) keys =
      (plan.drilled path field).factsAt facts keys := by
  rw [factsAt, factsAt, factsAt, List.filter_filter]
  refine List.filter_congr fun fact hfact => ?_
  obtain ⟨v, hv⟩ := hvalues fact hfact
  rw [tuple_drilled hv, Bool.and_eq_left_iff_imp, decide_eq_true_eq, decide_eq_true_eq]
  rintro rfl
  exact List.dropLast_concat.symm

/-- The rows below some keys are the group-by of the facts of these keys. -/
theorem IsGroupBy.below {rows : List (GroupRow σ)}
    (h : IsGroupBy arith (plan.drilled path field) facts rows)
    (hvalues : ∀ fact ∈ facts, ∃ v, valueAt fact.contents field = some v) (keys : List Value) :
    IsGroupBy arith (plan.drilled path field) (plan.factsAt facts keys) (rowsBelow rows keys) := by
  have hrow : ∀ longer : List Value, longer.dropLast = keys →
      (plan.drilled path field).rowAt arith (plan.factsAt facts keys) longer =
        (plan.drilled path field).rowAt arith facts longer := by
    rintro longer rfl
    rw [Plan.rowAt, Plan.rowAt, Plan.factsAt_factsAt hvalues]
  have htuple : ∀ fact ∈ facts,
      ((plan.drilled path field).tuple fact.contents).dropLast = plan.tuple fact.contents := by
    intro fact hfact
    obtain ⟨v, hv⟩ := hvalues fact hfact
    rw [Plan.tuple_drilled hv, List.dropLast_concat]
  constructor
  · exact h.ascending.filter _
  · intro row
    rw [rowsBelow, List.mem_filter, h.mem_iff, decide_eq_true_eq]
    constructor
    · rintro ⟨⟨fact, hfact, rfl⟩, hkeys⟩
      have hlast : plan.tuple fact.contents = keys := (htuple fact hfact).symm.trans hkeys
      exact ⟨fact, List.mem_filter.2 ⟨hfact, decide_eq_true hlast⟩, (hrow _ hkeys).symm⟩
    · rintro ⟨fact, hfact, rfl⟩
      obtain ⟨hfact, hlast⟩ := List.mem_filter.1 hfact
      have hkeys := (htuple fact hfact).trans (of_decide_eq_true hlast)
      exact ⟨⟨fact, hfact, hrow _ hkeys⟩, hkeys⟩

end Drilled

/-! ## Facts that fall out -/

section Blank

variable {plan : Plan} {path : String} {field : Field} {facts : List Record}

/-- The facts of a key are those that keep one and those that are blank at the new field. -/
theorem Plan.perm_factsAt_blankAt (keys : List Value) :
    (plan.factsAt (facts.filter fun fact => !fact.isBlankAt field) keys ++
      plan.blankAt facts keys field).Perm (plan.factsAt facts keys) := by
  rw [factsAt, List.filter_comm, blankAt]
  exact List.perm_append_comm.trans (List.filter_append_perm _ _)

theorem Arithmetic.IsExact.sumOf_blankAt (hexact : arith.IsExact) (dimension : Nat)
    (keys : List Value) :
    arith.sumOf dimension (plan.factsAt facts keys) =
      arith.add
        (arith.sumOf dimension
          (plan.factsAt (facts.filter fun fact => !fact.isBlankAt field) keys))
        (arith.sumOf dimension (plan.blankAt facts keys field)) := by
  rw [← hexact.sumOf_append, hexact.sumOf_perm dimension (Plan.perm_factsAt_blankAt keys)]

theorem Arithmetic.IsExact.sumOf_isBlankAt (hexact : arith.IsExact) (dimension : Nat) :
    arith.sumOf dimension facts =
      arith.add (arith.sumOf dimension (facts.filter fun fact => !fact.isBlankAt field))
        (arith.sumOf dimension (facts.filter fun fact => fact.isBlankAt field)) := by
  rw [← hexact.sumOf_append]
  exact hexact.sumOf_perm dimension
    (List.perm_append_comm.trans (List.filter_append_perm _ _)).symm

namespace IsGroupBy

variable {coarse coarse' fine fine' : List (GroupRow σ)}

/-- The rows below some keys count the facts of these keys. -/
theorem sum_count_below (h : IsGroupBy arith (plan.drilled path field) facts fine')
    (houtline : fine.map GroupRow.outline = fine'.map GroupRow.outline)
    (hvalues : ∀ fact ∈ facts, ∃ v, valueAt fact.contents field = some v) (keys : List Value) :
    ((rowsBelow fine keys).map GroupRow.count).sum = (plan.factsAt facts keys).length := by
  have houtlines : ∀ rows : List (GroupRow σ), (rowsBelow rows keys).map GroupRow.count =
      (rowsBelow (rows.map GroupRow.outline) keys).map GroupRow.count := by
    intro rows
    rw [rowsBelow, rowsBelow, List.filter_map, List.map_map]
    rfl
  rw [houtlines, houtline, ← houtlines, List.sum_eq_foldl, List.foldl_map]
  exact (h.below hvalues keys).foldl_count

/-- A row counts what the rows below it count and its facts that are blank at the new field. -/
theorem count_eq_below (h : IsGroupBy arith plan facts coarse')
    (houtline : coarse.map GroupRow.outline = coarse'.map GroupRow.outline)
    (h' : IsGroupBy arith (plan.drilled path field)
      (facts.filter fun fact => !fact.isBlankAt field) fine')
    (houtline' : fine.map GroupRow.outline = fine'.map GroupRow.outline)
    (hvalues : ∀ fact ∈ facts, ∃ v, valueAt fact.contents field = some v)
    {row : GroupRow σ} (hrow : row ∈ coarse) :
    row.count = ((rowsBelow fine row.keys).map GroupRow.count).sum +
      (plan.blankAt facts row.keys field).length := by
  obtain ⟨-, -, -, hcount⟩ := h.exists_fact houtline hrow
  rw [hcount, h'.sum_count_below houtline' fun fact hfact =>
    hvalues fact (List.mem_of_mem_filter hfact), ← List.length_append]
  exact (Plan.perm_factsAt_blankAt row.keys).length_eq.symm

/-- A row of facts that are not blank at the new field is below another row. -/
theorem exists_row_above (h : IsGroupBy arith plan facts coarse')
    (houtline : coarse.map GroupRow.outline = coarse'.map GroupRow.outline)
    (h' : IsGroupBy arith (plan.drilled path field)
      (facts.filter fun fact => !fact.isBlankAt field) fine')
    (houtline' : fine.map GroupRow.outline = fine'.map GroupRow.outline)
    (hvalues : ∀ fact ∈ facts, ∃ v, valueAt fact.contents field = some v)
    {part : GroupRow σ} (hpart : part ∈ fine) :
    ∃ row ∈ coarse, ∃ v : Value, v.isBlank = false ∧ part.keys = row.keys ++ [v] := by
  obtain ⟨fact, hfact, hkeys, -⟩ := h'.exists_fact houtline' hpart
  obtain ⟨hfact, hfilled⟩ := List.mem_filter.1 hfact
  obtain ⟨v, hv⟩ := hvalues fact hfact
  have habove : plan.tuple fact.contents ∈ coarse.map GroupRow.keys := by
    rw [keys_eq_of_outline houtline, h.perm_keys.mem_iff, List.mem_dedup]
    exact List.mem_map_of_mem hfact
  obtain ⟨row, hrow, hrowKeys⟩ := List.mem_map.1 habove
  refine ⟨row, hrow, v, ?_, by rw [hkeys, Plan.tuple_drilled hv, hrowKeys]⟩
  rwa [Record.isBlankAt, Record.value?, hv, Option.any_some, Bool.not_eq_true'] at hfilled

/-- With an exact addition, a total of a row is that of the rows below it and of its facts that are
blank at the new field. -/
theorem total_eq_below (hexact : arith.IsExact) (h : IsGroupBy arith plan facts coarse)
    (h' : IsGroupBy arith (plan.drilled path field)
      (facts.filter fun fact => !fact.isBlankAt field) fine)
    (hvalues : ∀ fact ∈ facts, ∃ v, valueAt fact.contents field = some v)
    {row : GroupRow σ} (hrow : row ∈ coarse) {column : Nat} {m : Nat × String}
    (hm : plan.measures[column]? = some m) :
    row.totals[column]? = some (arith.add (columnTotal arith (rowsBelow fine row.keys) column)
      (arith.sumOf m.1 (plan.blankAt facts row.keys field))) := by
  have hbelow := h'.below (fun fact hfact => hvalues fact (List.mem_of_mem_filter hfact)) row.keys
  have htotal : row.totals[column]? =
      some (arith.sumOf m.1 (plan.factsAt facts row.keys)) := by
    rw [h.eq_rowAt hrow, Plan.rowAt, List.getElem?_map, hm, Option.map_some]
  rw [htotal, hexact.sumOf_blankAt, hbelow.columnTotal_exact hexact hm]

end IsGroupBy

end Blank

/-! ## Answers of any number of workers -/

section Answers

variable {schema : Schema} {plan : Plan} {members? : Option (Std.TreeSet String)}
  {records : List Record}

/-- The summary counts the facts that are grouped. -/
theorem Aggregate.summary_count_eq (hschema : schema.WellFormed)
    (hfields : ∀ field ∈ plan.drilldowns, schema.HasField field)
    (hrecords : ∀ record ∈ records, schema.IsFact record) (workers : Nat) :
    (ofGroups arith plan (groupRecords arith plan members? workers records)).summary.count =
      (plan.grouped members? records).length := by
  have hrows := @isGroupBy_foldRecords _ arith _ hschema _ hfields members? _ hrecords
  rw [(counts_ofGroups (shape_groupRecords hschema hrecords workers)).1]
  simp only [ofGroups, Plan.length_measureNames]
  exact hrows.foldl_count

/-- The sums of the measures over some facts, by name. -/
def Plan.totalsOf (plan : Plan) (arith : Arithmetic σ) (facts : List Record) : List (String × σ) :=
  totalsByName (plan.measures.map fun m => (m.2, arith.sumOf m.1 facts))

/-- Every measure has its sum among them. -/
theorem Plan.mem_totalsOf (hschema : schema.WellFormed) {query : Query}
    (hplan : query.plan schema = .ok plan) {m : Nat × String} (hm : m ∈ plan.measures)
    (facts : List Record) : (m.2, arith.sumOf m.1 facts) ∈ plan.totalsOf arith facts := by
  have hnames : ∀ m ∈ plan.measures, ∀ n ∈ plan.measures, m.2 = n.2 → m.1 = n.1 :=
    fun _ hm _ hn => (Query.resolved_of_plan hplan).index_eq hschema hm hn
  exact (mem_totalsByName_measures hnames (fun m => arith.sumOf m.1 facts) _).2 ⟨m, hm, rfl⟩

/-- With an exact addition, the summary totals the facts that are grouped. -/
theorem Aggregate.summary_totals_eq (hexact : arith.IsExact) (hschema : schema.WellFormed)
    (hfields : ∀ field ∈ plan.drilldowns, schema.HasField field)
    (hrecords : ∀ record ∈ records, schema.IsFact record) (workers : Nat) :
    (ofGroups arith plan (groupRecords arith plan members? workers records)).summary.totals =
      plan.totalsOf arith (plan.grouped members? records) := by
  have hrows := @isGroupBy_foldRecords _ arith _ hschema _ hfields members? _ hrecords
  have htotals : ∀ m ∈ plan.measures,
      plan.totalOf arith (plan.grouped members? records)
          (groupRows arith plan.measures.length (foldRecords arith plan members? records)) m =
        arith.sumOf m.1 (plan.grouped members? records) := by
    intro m hm
    obtain ⟨column, hcolumn⟩ := List.mem_iff_getElem?.1 hm
    rw [← columnTotal_eq hrows hcolumn, hrows.columnTotal_exact hexact hcolumn]
  rw [Aggregate.ofGroups_congr (toList_groupRecords hexact hschema hrecords workers)]
  simp only [ofGroups, Plan.length_measureNames]
  rw [grandTotals_eq hrows, Plan.measureNames, List.zip_map', Plan.totalsOf, List.map_congr_left]
  exact fun m hm => by rw [htotals m hm]

end Answers

/-! ## Rolling up -/

section RollingUp

variable {schema : Schema} {query : Query} {plan : Plan} {path : String} {field : Field}
  {members? : Option (Std.TreeSet String)} {records : List Record}

/-- The plan of the query with one more drilldown. -/
theorem Query.plan_drilled (hplan : query.plan schema = .ok plan) (horder : query.order = [])
    (hpath : schema.resolve? path = some field) :
    (query.drilled path).plan schema = .ok (plan.drilled path field) := by
  have hresolved := Query.resolved_of_plan hplan
  have hnone : plan.order = [] := by
    have := hresolved.order
    rw [horder] at this
    exact (Except.ok.inj this).symm
  have hnew : Query.resolve schema path = .ok field := by rw [resolve, hpath]
  refine IsResolved.plan_eq { hresolved with drilldowns := ?_, order := ?_, drilldownNames := ?_ }
  · rw [Outcome.mapM_eq_ok_iff]
    exact List.rel_append (Outcome.mapM_eq_ok_iff.1 hresolved.drilldowns) (.cons hnew .nil)
  · show query.order.mapM (planOrder _ _) = .ok plan.order
    rw [horder, hnone]
    rfl
  · show plan.drilldownNames ++ [path] = query.drilldowns ++ [path]
    rw [hresolved.drilldownNames]

/-- A query for all rows is answered by the rows of all groups, in the order of their keys. -/
theorem Query.IsWhole.rows_ofGroups (h : query.IsWhole) (hplan : query.plan schema = .ok plan)
    (groups : Groups σ) :
    (Aggregate.ofGroups arith plan groups).rows = groupRows arith plan.measures.length groups := by
  have hresolved := Query.resolved_of_plan hplan
  have horder := hresolved.order
  rw [h.order] at horder
  refine Aggregate.rows_ofGroups (Except.ok.inj horder).symm ?_ ?_ groups
  · rw [hresolved.page]
    exact Nat.max_eq_right h.page
  · rw [hresolved.pageSize?, h.pageSize?]

/-- The answer over some records with one more drilldown rolls up to the answer without it. -/
theorem Aggregate.rollsUpTo_ofGroups (hschema : schema.WellFormed)
    (hplan : query.plan schema = .ok plan) (hwhole : query.IsWhole)
    (hpath : schema.resolve? path = some field)
    (hrecords : ∀ record ∈ records, schema.IsFact record) (workers : Nat) :
    Aggregate.RollsUpTo arith plan (plan.grouped members? records) field
      (.ofGroups arith (plan.drilled path field)
        (groupRecords arith (plan.drilled path field) members? workers records))
      (.ofGroups arith plan (groupRecords arith plan members? workers records)) := by
  have hplan' := Query.plan_drilled hplan hwhole.order hpath
  have hwhole' : (query.drilled path).IsWhole := ⟨hwhole.order, hwhole.page, hwhole.pageSize?⟩
  have hfields : ∀ field ∈ plan.drilldowns, schema.HasField field :=
    fun _ => (Query.resolved_of_plan hplan).hasField
  have hfields' : ∀ other ∈ (plan.drilled path field).drilldowns, schema.HasField other :=
    fun _ => (Query.resolved_of_plan hplan').hasField
  have hvalues : ∀ record ∈ records, ∃ v, valueAt record.contents field = some v :=
    fun record hrecord => exists_valueAt ((hrecords record hrecord).admits hschema)
      (Schema.hasField_of_resolve? hpath)
  -- The facts of the two answers.
  set facts := plan.grouped members? records with hfacts
  have hkept : (plan.drilled path field).grouped members? records =
      facts.filter fun fact => !fact.isBlankAt field := Plan.grouped_drilled members? records
  have hvalues : ∀ fact ∈ facts, ∃ v, valueAt fact.contents field = some v :=
    fun fact hfact => hvalues fact (List.mem_of_mem_filter hfact)
  -- Their rows.
  obtain ⟨coarse, hcoarse, houtline⟩ :=
    @exists_isGroupBy_groupRecords _ arith _ hschema _ hfields members? _ hrecords workers
  obtain ⟨fine, hfine, houtline'⟩ :=
    @exists_isGroupBy_groupRecords _ arith _ hschema _ hfields' members? _ hrecords workers
  rw [hkept] at hfine
  constructor
  · rfl
  · rw [hwhole.rows_ofGroups hplan, keys_eq_of_outline houtline]
    exact hcoarse.nodup_keys
  · intro row hrow
    rw [hwhole.rows_ofGroups hplan] at hrow
    rw [hwhole'.rows_ofGroups hplan']
    exact hcoarse.count_eq_below houtline hfine houtline' hvalues hrow
  · intro part hpart
    rw [hwhole'.rows_ofGroups hplan'] at hpart
    rw [hwhole.rows_ofGroups hplan]
    exact hcoarse.exists_row_above houtline hfine houtline' hvalues hpart
  · intro hexact row hrow column m hm
    have hcoarse := isGroupBy_groupRecords hexact hschema hfields members? hrecords workers
    have hfine := isGroupBy_groupRecords hexact hschema hfields' members? hrecords workers
    rw [hkept] at hfine
    rw [hwhole.rows_ofGroups hplan] at hrow
    rw [hwhole'.rows_ofGroups hplan']
    exact hcoarse.total_eq_below hexact hfine hvalues hrow hm
  · rw [summary_count_eq hschema hfields hrecords, summary_count_eq hschema hfields' hrecords,
      hkept, Nat.add_comm]
    exact List.length_eq_length_filter_add _
  · intro hexact m hm
    rw [summary_totals_eq hexact hschema hfields hrecords,
      summary_totals_eq hexact hschema hfields' hrecords, hkept]
    refine ⟨_, Plan.mem_totalsOf hschema hplan' hm _, ?_⟩
    rw [← hexact.sumOf_isBlankAt]
    exact Plan.mem_totalsOf hschema hplan hm facts
  · intro hfilled
    have hall : facts.filter (fun fact => !fact.isBlankAt field) = facts := by
      refine List.filter_eq_self.2 fun fact hfact => ?_
      rw [hfilled fact hfact, Bool.not_false]
    rw [hall] at hkept
    refine ⟨?_, fun hexact => ?_⟩
    · rw [summary_count_eq hschema hfields hrecords, summary_count_eq hschema hfields' hrecords,
        hkept]
    · rw [summary_totals_eq hexact hschema hfields hrecords,
        summary_totals_eq hexact hschema hfields' hrecords, hkept]
      rfl

end RollingUp

namespace Store

/-- The answer to a query with one more drilldown rolls up to the answer without it. -/
theorem aggregateWith_drilled {doc : Document} {schema : Schema} (hvalid : doc.validate = .ok schema)
    {query : Query} {plan : Plan} (hplan : query.plan schema = .ok plan) (hwhole : query.IsWhole)
    {path : String} {field : Field} (hpath : schema.resolve? path = some field) {store : Store}
    (hfacts : ∀ record ∈ store.toList, schema.IsFact record)
    (hcollection : ∀ name, query.collection? = some name →
      (store.collection? name).isSome = true) (arith : Arithmetic σ) (workers : Nat) :
    ∃ coarser finer, store.aggregateWith arith schema workers query = .ok coarser ∧
      store.aggregateWith arith schema workers (query.drilled path) = .ok finer ∧
      finer.RollsUpTo arith plan (store.groupedFacts plan) field coarser := by
  have hschema := Document.wellFormed_of_validate hvalid
  rw [← (Query.resolved_of_plan hplan).collection?] at hcollection
  obtain ⟨members?, hmembers, hvisible⟩ := exists_membersFor hcollection
  have hgrouped : plan.grouped members? store.toList = store.groupedFacts plan := by
    simp only [Plan.grouped, groupedFacts, hvisible]
  have hmembers' : store.membersFor (plan.drilled path field) = .ok members? := hmembers
  have hplan' := Query.plan_drilled hplan hwhole.order hpath
  refine ⟨_, _, ?_, ?_, hgrouped ▸
    Aggregate.rollsUpTo_ofGroups hschema hplan hwhole hpath hfacts workers⟩
  · rw [aggregateWith_of_plan hplan, hmembers]
    rfl
  · rw [aggregateWith_of_plan hplan', hmembers']
    rfl

end Store

/-! ## A sample -/

namespace Sample

/-- A store in which one payment has no recipient. -/
def anonymousStore : Store :=
  ((loadRows paymentsSchema .strict 1
    [paymentRow "Acme" "1" "yes" "5", paymentRow "" "1" "yes" "3",
     paymentRow "Bolt" "2" "no" "9"]).run .empty).2

theorem isFact_anonymousStore : ∀ record ∈ anonymousStore.toList, paymentsSchema.IsFact record :=
  Store.Built.isFact (.load .strict 1 _ .empty)

/-- The query for the amounts by stage. -/
def stagesQuery : Query := { Query.all with drilldowns := ["stage"] }

/-- The plan of the query. -/
def stagesPlan : Plan :=
  { Plan.all paymentsSchema with drilldownNames := ["stage"], drilldowns := [.scalar 1] }

end Sample

/-- The stages are split by recipient, with three workers and exact sums. -/
theorem Store.aggregateWith_drilled_sample :
    Sample.paymentsDocument.validate = .ok Sample.paymentsSchema ∧
      Sample.stagesQuery.plan Sample.paymentsSchema = .ok Sample.stagesPlan ∧
      Sample.stagesQuery.IsWhole ∧
      Sample.paymentsSchema.resolve? "to.name" = some (.component 0 0) ∧
      (∀ record ∈ Sample.anonymousStore.toList, Sample.paymentsSchema.IsFact record) ∧
      ∃ coarser finer,
        Sample.anonymousStore.aggregateWith .rational Sample.paymentsSchema 3 Sample.stagesQuery =
          .ok coarser ∧
        Sample.anonymousStore.aggregateWith .rational Sample.paymentsSchema 3
          (Sample.stagesQuery.drilled "to.name") = .ok finer ∧
        finer.RollsUpTo .rational Sample.stagesPlan
          (Sample.anonymousStore.groupedFacts Sample.stagesPlan) (.component 0 0) coarser := by
  have hpath : Sample.paymentsSchema.resolve? "to.name" = some (.component 0 0) := by decide
  have hwhole : Sample.stagesQuery.IsWhole := ⟨rfl, le_rfl, rfl⟩
  exact ⟨Sample.validate_payments, rfl, hwhole, hpath, Sample.isFact_anonymousStore,
    aggregateWith_drilled Sample.validate_payments rfl hwhole hpath Sample.isFact_anonymousStore
      (Query.isSome_collection? rfl _) .rational 3⟩

end FactCube
