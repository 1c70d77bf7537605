import FactCube.Cube.Aggregate
import FactCube.Proofs.Batches
import FactCube.Proofs.KeyedGroups
import FactCube.Proofs.PlannedFacts

/-!
# Aggregation is a group-by

An aggregate has one row for each tuple of values that occurs at the drilldowns. The specification
`IsGroupBy` says it without a map: the row of a tuple counts the facts with this tuple and sums each
measure over them, from the left and in the order of the store. It leaves no choice of the rows.

Results:
* `IsGroupBy.unique`: some facts have one group-by.
* `isGroupBy_groupRows`: the rows of grouped facts are their group-by.
* `isGrandTotal_of_isGroupBy`: the named totals are the sums of the columns.
* `IsGroupByAnswer.unique`: a plan has one answer over some facts.
* `Store.aggregate_eq_groupBy`: with one worker, the answer to a query is a group-by.
-/

namespace FactCube

variable {σ : Type} {arith : Arithmetic σ}

/-! ## Specification -/

/-- The facts with a tuple of values, in order. -/
def Plan.factsAt (plan : Plan) (facts : List Record) (keys : List Value) : List Record :=
  facts.filter fun fact => plan.tuple fact.contents = keys

/-- The sum of a measure over some facts, taken from the left. -/
def Arithmetic.sumOf (arith : Arithmetic σ) (dimension : Nat) (facts : List Record) : σ :=
  facts.foldl (fun sum fact => arith.add sum (arith.amountOf dimension fact.contents)) arith.zero

/-- The row of a tuple of values: a sum for each measure and the count of its facts. -/
def Plan.rowAt (plan : Plan) (arith : Arithmetic σ) (facts : List Record) (keys : List Value) :
    GroupRow σ where
  keys := keys
  totals := plan.measures.map fun m => arith.sumOf m.1 (plan.factsAt facts keys)
  count := (plan.factsAt facts keys).length

/-- Whether rows are the groups of some facts: strictly ascending, one for each tuple that
occurs. -/
structure IsGroupBy (arith : Arithmetic σ) (plan : Plan) (facts : List Record)
    (rows : List (GroupRow σ)) : Prop where
  ascending : rows.Pairwise fun a b => Value.compareLists a.keys b.keys = .lt
  mem_iff : ∀ row, row ∈ rows ↔
    ∃ fact ∈ facts, row = plan.rowAt arith facts (plan.tuple fact.contents)

/-- The sum of a column of totals over some rows, taken from the left. -/
def columnTotal (arith : Arithmetic σ) (rows : List (GroupRow σ)) (column : Nat) : σ :=
  rows.foldl (fun total row => arith.add total (row.totals.getD column arith.zero)) arith.zero

/-- Whether named totals are the sums of the columns of a plan: strictly ascending by name, one for
each measure. -/
structure IsGrandTotal (arith : Arithmetic σ) (plan : Plan) (rows : List (GroupRow σ))
    (totals : List (String × σ)) : Prop where
  ascending : totals.Pairwise fun a b => compare a.1 b.1 = .lt
  mem_iff : ∀ name total, (name, total) ∈ totals ↔
    ∃ column, plan.measureNames[column]? = some name ∧ total = columnTotal arith rows column

/-- Whether an answer is the group-by of some facts: it has a row for each tuple, or a page of these
rows in the order asked for; it counts all facts and all tuples and totals the columns of all rows.
This leaves no part of the answer open. -/
structure IsGroupByAnswer (arith : Arithmetic σ) (plan : Plan) (facts : List Record)
    (rows : List (GroupRow σ)) (answer : Aggregate σ) : Prop where
  groupBy : IsGroupBy arith plan facts rows
  /-- Without order keys and a page size the answer has just these rows. -/
  rows_eq : plan.order = [] → plan.page = 1 → plan.pageSize? = none → answer.rows = rows
  drilldowns_eq : answer.drilldowns = plan.drilldownNames
  measures_eq : answer.measures = plan.measureNames
  count_eq : answer.summary.count = facts.length
  groups_eq : answer.summary.groups =
    (facts.map fun fact => plan.tuple fact.contents).dedup.length
  totals : IsGrandTotal arith plan rows answer.summary.totals
  page_eq : answer.summary.page = plan.page
  /-- The size of a page is the asked one, or else the number of all rows, and at least 1. -/
  pageSize_eq : answer.summary.pageSize = max (plan.pageSize?.getD rows.length) 1
  pages_eq : answer.summary.pages = ceilDiv rows.length answer.summary.pageSize
  page_rows_eq : answer.rows =
    pageOf plan.page answer.summary.pageSize (orderRows arith plan.order rows)

namespace IsGroupBy

variable {plan : Plan} {facts : List Record} {rows : List (GroupRow σ)}

theorem nodup_keys (h : IsGroupBy arith plan facts rows) : (rows.map GroupRow.keys).Nodup := by
  rw [List.Nodup, List.pairwise_map]
  refine h.ascending.imp fun {a b} hlt heq => ?_
  rw [heq, @Std.ReflCmp.compare_self _ Value.compareLists] at hlt
  cases hlt

/-- The keys are the tuples of the facts without their repetitions. -/
theorem perm_keys (h : IsGroupBy arith plan facts rows) :
    (rows.map GroupRow.keys).Perm (facts.map fun fact => plan.tuple fact.contents).dedup := by
  rw [List.perm_ext_iff_of_nodup h.nodup_keys (List.nodup_dedup _)]
  intro keys
  rw [List.mem_dedup, List.mem_map, List.mem_map]
  constructor
  · rintro ⟨row, hrow, rfl⟩
    obtain ⟨fact, hfact, rfl⟩ := (h.mem_iff row).1 hrow
    exact ⟨fact, hfact, rfl⟩
  · rintro ⟨fact, hfact, rfl⟩
    exact ⟨_, (h.mem_iff _).2 ⟨fact, hfact, rfl⟩, rfl⟩

/-- The keys are the only list of the tuples of the facts that ascends strictly. -/
theorem keys_eq_of_ascending (h : IsGroupBy arith plan facts rows) {keys : List (List Value)}
    (hascending : keys.Pairwise fun a b => Value.compareLists a b = .lt)
    (hmem : ∀ k, k ∈ keys ↔ ∃ fact ∈ facts, plan.tuple fact.contents = k) :
    rows.map GroupRow.keys = keys := by
  have hnodup : keys.Nodup := hascending.imp fun {a b} hlt heq => by
    rw [heq, @Std.ReflCmp.compare_self _ Value.compareLists] at hlt
    cases hlt
  refine @List.Perm.eq_of_pairwise _ (fun a b => Value.compareLists a b = .lt) _ _ ?_ ?_
    hascending ?_
  · exact fun a b _ _ hab hba => absurd hba (Std.OrientedCmp.not_lt_of_lt hab)
  · exact List.pairwise_map.2 h.ascending
  · rw [List.perm_ext_iff_of_nodup h.nodup_keys hnodup]
    intro k
    rw [h.perm_keys.mem_iff, List.mem_dedup, List.mem_map, hmem]

/-- Some facts have one group-by. -/
theorem unique (h : IsGroupBy arith plan facts rows) {rows' : List (GroupRow σ)}
    (h' : IsGroupBy arith plan facts rows') : rows = rows' := by
  refine List.Perm.eq_of_pairwise ?_ h.ascending h'.ascending ?_
  · intro a b _ _ hab hba
    exact absurd hba (Std.OrientedCmp.not_lt_of_lt hab)
  · rw [List.perm_ext_iff_of_nodup h.nodup_keys.of_map h'.nodup_keys.of_map]
    intro row
    rw [h.mem_iff, h'.mem_iff]

/-- There are as many rows as different tuples. -/
theorem length_eq (h : IsGroupBy arith plan facts rows) :
    rows.length = (facts.map fun fact => plan.tuple fact.contents).dedup.length := by
  rw [← h.perm_keys.length_eq, List.length_map]

theorem length_factsAt (keys : List Value) :
    (plan.factsAt facts keys).length =
      (facts.map fun fact => plan.tuple fact.contents).countP fun tuple => tuple = keys := by
  rw [Plan.factsAt, ← List.countP_eq_length_filter, List.countP_map]
  rfl

/-- Every row is the row of its keys. -/
theorem eq_rowAt (h : IsGroupBy arith plan facts rows) {row : GroupRow σ} (hrow : row ∈ rows) :
    row = plan.rowAt arith facts row.keys := by
  obtain ⟨fact, -, rfl⟩ := (h.mem_iff row).1 hrow
  rfl

/-- Every fact is counted in one row. -/
theorem foldl_count (h : IsGroupBy arith plan facts rows) :
    rows.foldl (fun count row => count + row.count) 0 = facts.length := by
  have hcounts : rows.map GroupRow.count = (rows.map GroupRow.keys).map fun keys =>
      (facts.map fun fact => plan.tuple fact.contents).countP fun tuple => tuple = keys := by
    rw [List.map_map]
    refine List.map_congr_left fun row hrow => ?_
    rw [h.eq_rowAt hrow]
    exact length_factsAt row.keys
  calc rows.foldl (fun count row => count + row.count) 0
      = (rows.map GroupRow.count).sum := by rw [List.sum_eq_foldl, List.foldl_map]
    _ = ((facts.map fun fact => plan.tuple fact.contents).dedup.map fun keys =>
          (facts.map fun fact => plan.tuple fact.contents).countP
            fun tuple => tuple = keys).sum := by
        rw [hcounts]
        exact (h.perm_keys.map _).sum_eq
    _ = (facts.map fun fact => plan.tuple fact.contents).length :=
        List.sum_map_count_dedup_eq_length _
    _ = facts.length := List.length_map _

end IsGroupBy

/-! ## Rows of grouped facts -/

section Grouping

variable {schema : Schema} {plan : Plan} {facts : List Record}

/-- The facts of a key are those with its tuple, since keys are regular. -/
theorem amountsAt_contribute
    (hregular : ∀ fact ∈ facts, Groups.IsRegularKey (plan.tuple fact.contents))
    {keys : List Value} (hkeys : Groups.IsRegularKey keys) :
    Groups.amountsAt keys (facts.map (plan.contribute arith)) =
      (plan.factsAt facts keys).map fun fact => arith.amounts plan fact.contents := by
  rw [Groups.amountsAt, List.filter_map, List.map_map, Plan.factsAt]
  have hfilter : facts.filter ((fun c => compareKeys c.key keys == .eq) ∘ plan.contribute arith) =
      facts.filter fun fact => plan.tuple fact.contents = keys := by
    refine List.filter_congr fun fact hfact => ?_
    rw [Bool.eq_iff_iff]
    simp only [Function.comp_apply, Plan.contribute, beq_iff_eq, decide_eq_true_eq]
    constructor
    · exact eq_of_compareKeys (hregular fact hfact) hkeys
    · rintro rfl
      exact @Std.ReflCmp.compare_self _ compareKeys _ _
  rw [hfilter]
  rfl

/-- The tally of some facts has a sum for each measure. -/
theorem tally_amounts (h : facts ≠ []) :
    Tally.ofList arith (facts.map fun fact => arith.amounts plan fact.contents) =
      ⟨plan.measures.map fun m => arith.sumOf m.1 facts, facts.length⟩ := by
  have hsums : (Tally.ofList arith (facts.map fun fact => arith.amounts plan fact.contents)).sums =
      plan.measures.map fun m => arith.sumOf m.1 facts :=
    Tally.sums_ofList_map plan.measures (fun fact m => arith.amountOf m.1 fact.contents) h
  have hcount :
      (Tally.ofList arith (facts.map fun fact => arith.amounts plan fact.contents)).count =
        facts.length := by
    rw [Tally.count_ofList, List.length_map]
  rw [← hsums, ← hcount]

/-- A tuple has a tally iff it occurs, and the tally makes its row. -/
theorem row_of_tally
    (hregular : ∀ fact ∈ facts, Groups.IsRegularKey (plan.tuple fact.contents))
    {keys : List Value} (hkeys : Groups.IsRegularKey keys) (row : GroupRow σ) :
    (∃ t, (Groups.ofList arith (facts.map (plan.contribute arith)))[keys]? = some t ∧
        row = ⟨keys, arith.resize plan.measures.length t.sums, t.count⟩) ↔
      (∃ fact ∈ facts, plan.tuple fact.contents = keys) ∧ row = plan.rowAt arith facts keys := by
  rw [Groups.getElem?_ofList, amountsAt_contribute hregular hkeys, Tally.ofList?, List.isEmpty_map]
  by_cases hempty : plan.factsAt facts keys = []
  · have hnone : ¬∃ fact ∈ facts, plan.tuple fact.contents = keys := by
      rintro ⟨fact, hfact, htuple⟩
      rw [Plan.factsAt, List.filter_eq_nil_iff] at hempty
      exact hempty fact hfact (by simpa using htuple)
    simp [hempty, hnone]
  · obtain ⟨fact, hfact⟩ := List.exists_mem_of_ne_nil _ hempty
    rw [Plan.factsAt, List.mem_filter, decide_eq_true_eq] at hfact
    have hresize : arith.resize plan.measures.length
        (plan.measures.map fun m => arith.sumOf m.1 (plan.factsAt facts keys)) =
        plan.measures.map fun m => arith.sumOf m.1 (plan.factsAt facts keys) :=
      Arithmetic.resize_of_length (List.length_map _)
    rw [if_neg (by simpa using hempty), tally_amounts hempty]
    constructor
    · rintro ⟨t, ht, rfl⟩
      cases ht
      exact ⟨⟨fact, hfact⟩, by rw [hresize]; rfl⟩
    · rintro ⟨-, rfl⟩
      exact ⟨_, rfl, by rw [hresize]; rfl⟩

/-- The rows of grouped facts are their group-by. -/
theorem isGroupBy_groupRows
    (hfits : ∀ fact ∈ facts,
      List.Forall₂ (fun field (value : Value) => value.Fits (schema.typeOf field))
        plan.drilldowns (plan.tuple fact.contents)) :
    IsGroupBy arith plan facts
      (groupRows arith plan.measures.length
        (Groups.ofList arith (facts.map (plan.contribute arith)))) := by
  have hregular : ∀ fact ∈ facts, Groups.IsRegularKey (plan.tuple fact.contents) :=
    fun fact hfact => regular_of_fits (hfits fact hfact)
  have hkeys : (Groups.ofList arith (facts.map (plan.contribute arith))).KeysSatisfy
      fun key => ∃ fact ∈ facts, plan.tuple fact.contents = key := by
    refine Groups.keysSatisfy_ofList fun c hc => ?_
    obtain ⟨fact, hfact, rfl⟩ := List.mem_map.1 hc
    exact ⟨fact, hfact, rfl⟩
  have hregularKeys : (Groups.ofList arith (facts.map (plan.contribute arith))).KeysSatisfy
      Groups.IsRegularKey := by
    intro asked stored hstored
    obtain ⟨fact, hfact, rfl⟩ := hkeys asked stored hstored
    exact hregular fact hfact
  constructor
  · rw [groupRows, List.pairwise_map]
    refine List.Pairwise.imp_of_mem ?_ Std.TreeMap.ordered_keys_toList
    intro a b ha hb hlt
    obtain ⟨fact, hfact, hkey⟩ := hkeys.of_mem_toList ha
    obtain ⟨fact', hfact', hkey'⟩ := hkeys.of_mem_toList hb
    have htypes : a.1.map Value.dataType = b.1.map Value.dataType := by
      rw [← hkey, ← hkey', map_dataType_of_fits (hfits fact hfact),
        map_dataType_of_fits (hfits fact' hfact')]
    show Value.compareLists a.1 b.1 = .lt
    rw [← compareKeys_eq_compareLists htypes, hlt]
  · intro row
    rw [groupRows, List.mem_map]
    constructor
    · rintro ⟨⟨key, t⟩, hmem, rfl⟩
      obtain ⟨hkey, ht⟩ := (Groups.mem_toList_iff hregularKeys).1 hmem
      obtain ⟨⟨fact, hfact, rfl⟩, hrow⟩ := (row_of_tally hregular hkey _).1 ⟨t, ht, rfl⟩
      exact ⟨fact, hfact, hrow⟩
    · rintro ⟨fact, hfact, hrow⟩
      obtain ⟨t, ht, rfl⟩ :=
        (row_of_tally hregular (hregular fact hfact) row).2 ⟨⟨fact, hfact, rfl⟩, hrow⟩
      exact ⟨(_, t), (Groups.mem_toList_iff hregularKeys).2 ⟨hregular fact hfact, ht⟩, rfl⟩

end Grouping

/-! ## Totals by name -/

/-- The order of named totals. -/
abbrev NamedAscending (totals : List (String × σ)) : Prop :=
  totals.Pairwise fun a b => compare a.1 b.1 = .lt

/-- A total is put in by its name; a total of the same name gives way. -/
theorem mem_insertTotal {name : String} {total : σ} {sorted : List (String × σ)}
    (h : NamedAscending sorted) (entry : String × σ) :
    entry ∈ insertTotal name total sorted ↔
      entry = (name, total) ∨ entry ∈ sorted ∧ entry.1 ≠ name := by
  induction sorted with
  | nil => simp [insertTotal]
  | cons first rest ih =>
    obtain ⟨other, old⟩ := first
    obtain ⟨hfirst, hrest⟩ := List.pairwise_cons.1 h
    have hne : ∀ {a b : String}, compare a b = .lt → b ≠ a := by
      rintro a _ hlt rfl
      rw [Std.ReflOrd.compare_self] at hlt
      cases hlt
    rw [insertTotal]
    cases hcompare : compare name other with
    | lt =>
      -- All entries come after `name`.
      have hkeep : entry ∈ (other, old) :: rest → entry.1 ≠ name := by
        rintro hmem
        rcases List.mem_cons.1 hmem with rfl | hmem
        · exact hne hcompare
        · exact hne (Std.TransCmp.lt_trans hcompare (hfirst entry hmem))
      rw [List.mem_cons]
      exact or_congr_right ⟨fun hmem => ⟨hmem, hkeep hmem⟩, And.left⟩
    | eq =>
      obtain rfl := Std.LawfulEqOrd.eq_of_compare hcompare
      have hkeep : entry ∈ rest → entry.1 ≠ name := fun hmem => hne (hfirst entry hmem)
      rw [List.mem_cons, List.mem_cons, or_and_right]
      apply or_congr_right
      constructor
      · exact fun hmem => .inr ⟨hmem, hkeep hmem⟩
      · rintro (⟨rfl, hself⟩ | ⟨hmem, -⟩)
        · exact absurd rfl hself
        · exact hmem
    | gt =>
      have hlt : compare other name = .lt := Std.OrientedCmp.lt_of_gt hcompare
      rw [List.mem_cons, ih hrest, List.mem_cons, or_and_right, or_left_comm]
      apply or_congr_right
      apply or_congr_left
      constructor
      · rintro rfl
        exact ⟨rfl, (hne hlt).symm⟩
      · exact And.left

theorem ascending_insertTotal {name : String} {total : σ} {sorted : List (String × σ)}
    (h : NamedAscending sorted) : NamedAscending (insertTotal name total sorted) := by
  induction sorted with
  | nil => exact List.pairwise_singleton _ _
  | cons first rest ih =>
    obtain ⟨other, old⟩ := first
    obtain ⟨hfirst, hrest⟩ := List.pairwise_cons.1 h
    rw [insertTotal]
    cases hcompare : compare name other with
    | lt =>
      refine List.pairwise_cons.2 ⟨?_, h⟩
      rintro entry hmem
      rcases List.mem_cons.1 hmem with rfl | hmem
      · exact hcompare
      · exact Std.TransCmp.lt_trans hcompare (hfirst entry hmem)
    | eq =>
      obtain rfl := Std.LawfulEqOrd.eq_of_compare hcompare
      exact List.pairwise_cons.2 ⟨hfirst, hrest⟩
    | gt =>
      refine List.pairwise_cons.2 ⟨?_, ih hrest⟩
      intro entry hmem
      rcases (mem_insertTotal hrest entry).1 hmem with rfl | ⟨hmem, -⟩
      · exact Std.OrientedCmp.lt_of_gt hcompare
      · exact hfirst entry hmem

theorem totalsByName_concat (totals : List (String × σ)) (entry : String × σ) :
    totalsByName (totals ++ [entry]) = insertTotal entry.1 entry.2 (totalsByName totals) := by
  rw [totalsByName, List.foldl_append, List.foldl_cons, List.foldl_nil, totalsByName]

theorem ascending_totalsByName (totals : List (String × σ)) :
    NamedAscending (totalsByName totals) := by
  induction totals using List.reverseRecOn with
  | nil => exact .nil
  | append_singleton totals entry ih =>
    rw [totalsByName_concat]
    exact ascending_insertTotal ih

/-- Where equal names have equal totals, sorting by name keeps all totals. -/
theorem mem_totalsByName {totals : List (String × σ)}
    (h : ∀ a ∈ totals, ∀ b ∈ totals, a.1 = b.1 → a = b) (entry : String × σ) :
    entry ∈ totalsByName totals ↔ entry ∈ totals := by
  induction totals using List.reverseRecOn with
  | nil => rfl
  | append_singleton totals last ih =>
    rw [totalsByName_concat, mem_insertTotal (ascending_totalsByName totals),
      ih fun a ha b hb => h a (by simp [ha]) b (by simp [hb]), List.mem_append, List.mem_singleton]
    constructor
    · rintro (rfl | ⟨hmem, -⟩)
      · exact .inr rfl
      · exact .inl hmem
    · rintro (hmem | rfl)
      · by_cases hname : entry.1 = last.1
        · exact .inl (h entry (by simp [hmem]) last (by simp) hname)
        · exact .inr ⟨hmem, hname⟩
      · exact .inl rfl

/-! ## Grand totals -/

section GrandTotals

variable {plan : Plan} {facts : List Record} {rows : List (GroupRow σ)}

/-- Where measures of one name are the same, sorting their totals by name keeps all of them. -/
theorem mem_totalsByName_measures
    (hnames : ∀ m ∈ plan.measures, ∀ n ∈ plan.measures, m.2 = n.2 → m.1 = n.1)
    (total : Nat × String → σ) (entry : String × σ) :
    entry ∈ totalsByName (plan.measures.map fun m => (m.2, total m)) ↔
      ∃ m ∈ plan.measures, (m.2, total m) = entry := by
  have hsame : ∀ a ∈ plan.measures.map (fun m => (m.2, total m)),
      ∀ b ∈ plan.measures.map (fun m => (m.2, total m)), a.1 = b.1 → a = b := by
    intro a ha b hb hname
    obtain ⟨m, hm, rfl⟩ := List.mem_map.1 ha
    obtain ⟨n, hn, rfl⟩ := List.mem_map.1 hb
    rw [show m = n from Prod.ext (hnames m hm n hn hname) hname]
  rw [mem_totalsByName hsame, List.mem_map]

/-- The sum of a measure over the sums of all rows. -/
def Plan.totalOf (plan : Plan) (arith : Arithmetic σ) (facts : List Record)
    (rows : List (GroupRow σ)) (m : Nat × String) : σ :=
  rows.foldl (fun total row => arith.add total (arith.sumOf m.1 (plan.factsAt facts row.keys)))
    arith.zero

theorem columnTotal_eq (h : IsGroupBy arith plan facts rows) {column : Nat} {m : Nat × String}
    (hm : plan.measures[column]? = some m) :
    columnTotal arith rows column = plan.totalOf arith facts rows m := by
  rw [columnTotal, Plan.totalOf]
  refine List.foldl_ext _ _ _ fun total row hrow => ?_
  have hcolumn : row.totals[column]? = some (arith.sumOf m.1 (plan.factsAt facts row.keys)) := by
    rw [h.eq_rowAt hrow, Plan.rowAt, List.getElem?_map, hm, Option.map_some]
  rw [List.getD_eq_getElem?_getD, hcolumn, Option.getD_some]

theorem foldl_addSums_map (start : Nat × String → σ)
    (h : ∀ row ∈ rows, row = plan.rowAt arith facts row.keys) :
    rows.foldl (fun totals row => arith.addSums totals row.totals) (plan.measures.map start) =
      plan.measures.map fun m =>
        rows.foldl
          (fun total row => arith.add total (arith.sumOf m.1 (plan.factsAt facts row.keys)))
          (start m) := by
  induction rows generalizing start with
  | nil => rfl
  | cons row rows ih =>
    rw [List.forall_mem_cons] at h
    have htotals : row.totals =
        plan.measures.map fun m => arith.sumOf m.1 (plan.factsAt facts row.keys) :=
      congrArg GroupRow.totals h.1
    rw [List.foldl_cons, htotals, Arithmetic.addSums_map_map, ih _ h.2]
    rfl

theorem grandTotals_eq (h : IsGroupBy arith plan facts rows) :
    grandTotals arith plan.measures.length rows =
      plan.measures.map (plan.totalOf arith facts rows) := by
  rw [grandTotals, Arithmetic.resize_nil, ← List.map_const',
    foldl_addSums_map _ fun _ => h.eq_rowAt]
  rfl

/-- The named totals are the sums of the columns. -/
theorem isGrandTotal_of_isGroupBy (h : IsGroupBy arith plan facts rows)
    (hnames : ∀ m ∈ plan.measures, ∀ n ∈ plan.measures, m.2 = n.2 → m.1 = n.1) :
    IsGrandTotal arith plan rows
      (totalsByName (plan.measureNames.zip (grandTotals arith plan.measures.length rows))) := by
  have hzip : plan.measureNames.zip (grandTotals arith plan.measures.length rows) =
      plan.measures.map fun m => (m.2, plan.totalOf arith facts rows m) := by
    rw [grandTotals_eq h, Plan.measureNames, List.zip_map']
  rw [hzip]
  refine ⟨ascending_totalsByName _, fun name total => ?_⟩
  rw [mem_totalsByName_measures hnames]
  constructor
  · rintro ⟨m, hm, heq⟩
    obtain ⟨column, hcolumn⟩ := List.mem_iff_getElem?.1 hm
    obtain ⟨rfl, rfl⟩ := Prod.mk.inj heq
    refine ⟨column, ?_, (columnTotal_eq h hcolumn).symm⟩
    rw [Plan.measureNames, List.getElem?_map, hcolumn, Option.map_some]
  · rintro ⟨column, hname, rfl⟩
    rw [Plan.measureNames, List.getElem?_map, Option.map_eq_some_iff] at hname
    obtain ⟨m, hm, rfl⟩ := hname
    exact ⟨m, List.mem_of_getElem? hm, by rw [columnTotal_eq h hm]⟩

end GrandTotals

/-! ## Answers -/

theorem IsGrandTotal.unique {plan : Plan} {rows : List (GroupRow σ)}
    {totals totals' : List (String × σ)} (h : IsGrandTotal arith plan rows totals)
    (h' : IsGrandTotal arith plan rows totals') : totals = totals' := by
  have hnodup : ∀ {named : List (String × σ)}, NamedAscending named → named.Nodup := by
    intro named hascending
    refine hascending.imp fun {a b} hlt heq => ?_
    rw [heq, Std.ReflOrd.compare_self] at hlt
    cases hlt
  refine List.Perm.eq_of_pairwise ?_ h.ascending h'.ascending ?_
  · intro a b _ _ hab hba
    exact absurd hba (Std.OrientedCmp.not_lt_of_lt hab)
  · rw [List.perm_ext_iff_of_nodup (hnodup h.ascending) (hnodup h'.ascending)]
    rintro ⟨name, total⟩
    rw [h.mem_iff, h'.mem_iff]

/-- A plan has one answer over some facts. -/
theorem IsGroupByAnswer.unique {plan : Plan} {facts : List Record}
    {rows rows' : List (GroupRow σ)} {answer answer' : Aggregate σ}
    (h : IsGroupByAnswer arith plan facts rows answer)
    (h' : IsGroupByAnswer arith plan facts rows' answer') : answer = answer' := by
  obtain rfl := h.groupBy.unique h'.groupBy
  have hsize : answer.summary.pageSize = answer'.summary.pageSize :=
    h.pageSize_eq.trans h'.pageSize_eq.symm
  have hsummary : answer.summary = answer'.summary := by
    refine Summary.ext (h.totals.unique h'.totals) (h.count_eq.trans h'.count_eq.symm)
      (h.groups_eq.trans h'.groups_eq.symm) (h.page_eq.trans h'.page_eq.symm) ?_ hsize
    rw [h.pages_eq, h'.pages_eq, hsize]
  refine Aggregate.ext (h.drilldowns_eq.trans h'.drilldowns_eq.symm)
    (h.measures_eq.trans h'.measures_eq.symm) ?_ hsummary
  rw [h.page_rows_eq, h'.page_rows_eq, hsize]

/-- Without order keys rows stay as they are. -/
theorem orderRows_nil (rows : List (GroupRow σ)) : orderRows arith [] rows = rows :=
  List.mergeSort_of_pairwise (List.pairwise_of_forall fun _ _ => rfl)

/-- Without an order and a page size, the rows are those of all groups by their keys. -/
theorem Aggregate.rows_ofGroups {plan : Plan} (horder : plan.order = []) (hpage : plan.page = 1)
    (hsize : plan.pageSize? = none) (groups : Groups σ) :
    (ofGroups arith plan groups).rows = groupRows arith plan.measures.length groups := by
  have hall : ∀ rows : List (GroupRow σ), pageOf 1 (Nat.max rows.length 1) rows = rows := by
    intro rows
    rw [pageOf, Nat.sub_self, Nat.zero_mul, List.drop_zero]
    exact List.take_of_length_le (Nat.le_max_left _ _)
  simp only [ofGroups, horder, hpage, hsize, Option.getD_none, orderRows_nil, hall,
    Plan.length_measureNames]

namespace Store

/-- Whether a plan can see a record of a store: it is in the collection that the plan names, if it
names one. -/
def isVisible (store : Store) (plan : Plan) (record : Record) : Bool :=
  match plan.collection? with
  | none => true
  | some name => (store.collection? name).any fun members => members.contains record.id

/-- The facts of a store that a plan groups, in the order of the store: those it can see, selects
and finds blank in no drilldown. -/
def groupedFacts (store : Store) (plan : Plan) : List Record :=
  store.toList.filter fun record =>
    store.isVisible plan record && plan.selects record.contents && !plan.isBlankIn record.contents

theorem exists_membersFor {store : Store} {plan : Plan}
    (h : ∀ name, plan.collection? = some name → (store.collection? name).isSome = true) :
    ∃ members?, store.membersFor plan = .ok members? ∧
      ∀ record : Record, isMember members? record.id = store.isVisible plan record := by
  unfold membersFor isVisible
  cases hcollection : plan.collection? with
  | none => exact ⟨none, rfl, fun _ => rfl⟩
  | some name =>
    obtain ⟨members, hmembers⟩ := Option.isSome_iff_exists.1 (h name hcollection)
    simp only [hmembers]
    exact ⟨some members, rfl, fun _ => rfl⟩

/-- The answer over groups whose rows are a group-by. -/
theorem isGroupByAnswer_ofGroups {plan : Plan} {facts : List Record} {groups : Groups σ}
    (h : IsGroupBy arith plan facts (groupRows arith plan.measures.length groups))
    (hnames : ∀ m ∈ plan.measures, ∀ n ∈ plan.measures, m.2 = n.2 → m.1 = n.1) :
    IsGroupByAnswer arith plan facts (groupRows arith plan.measures.length groups)
      (.ofGroups arith plan groups) := by
  constructor
  · exact h
  · exact fun horder hpage hsize => Aggregate.rows_ofGroups horder hpage hsize groups
  · rfl
  · rfl
  · simp only [Aggregate.ofGroups, Plan.length_measureNames, h.foldl_count]
  · simp only [Aggregate.ofGroups, Plan.length_measureNames, h.length_eq]
  · simp only [Aggregate.ofGroups, Plan.length_measureNames]
    exact isGrandTotal_of_isGroupBy h hnames
  · rfl
  · simp only [Aggregate.ofGroups, Plan.length_measureNames]
  · simp only [Aggregate.ofGroups, Plan.length_measureNames]
  · simp only [Aggregate.ofGroups, Plan.length_measureNames]

/-- With one worker, the answer to a query is a group-by of the facts that its plan groups. -/
theorem aggregate_eq_groupBy {doc : Document} {schema : Schema} (hvalid : doc.validate = .ok schema)
    {query : Query} {plan : Plan} (hplan : query.plan schema = .ok plan) {store : Store}
    (hfacts : ∀ record ∈ store.toList, schema.IsFact record)
    (hcollection : ∀ name, query.collection? = some name →
      (store.collection? name).isSome = true) (arith : Arithmetic σ) :
    ∃ answer rows, store.aggregateWith arith schema 1 query = .ok answer ∧
      IsGroupByAnswer arith plan (store.groupedFacts plan) rows answer := by
  have hschema := Document.wellFormed_of_validate hvalid
  have hresolved := Query.resolved_of_plan hplan
  rw [← hresolved.collection?] at hcollection
  obtain ⟨members?, hmembers, hvisible⟩ := exists_membersFor hcollection
  have hgrouped : plan.grouped members? store.toList = store.groupedFacts plan := by
    simp only [Plan.grouped, groupedFacts, hvisible]
  have hfields : ∀ field ∈ plan.drilldowns, schema.HasField field := fun _ => hresolved.hasField
  have hgroups : groupRecords arith plan members? 1 store.toList =
      .ofList arith ((store.groupedFacts plan).map (plan.contribute arith)) := by
    rw [groupRecords, if_pos (.inl le_rfl), contributions_eq hschema hfields members? hfacts,
      hgrouped]
  have hrows : IsGroupBy arith plan (store.groupedFacts plan)
      (groupRows arith plan.measures.length (groupRecords arith plan members? 1 store.toList)) := by
    rw [hgroups]
    refine @isGroupBy_groupRows _ _ schema _ _ fun fact hfact => ?_
    rw [← hgrouped] at hfact
    exact fits_of_mem_grouped hschema hfields hfacts hfact
  refine ⟨.ofGroups arith plan (groupRecords arith plan members? 1 store.toList), _, ?_,
    isGroupByAnswer_ofGroups hrows fun _ hm _ hn => hresolved.index_eq hschema hm hn⟩
  rw [aggregateWith, hplan]
  show (store.membersFor plan >>= _) = _
  rw [hmembers]
  rfl

/-- The amounts by region, in binary64 numbers. -/
theorem aggregate_eq_groupBy_sample :
    (Sample.document true).validate = .ok (Sample.schema true) ∧
      Sample.query.plan (Sample.schema true) = .ok Sample.plan ∧
      (∀ record ∈ (Sample.store true).toList, (Sample.schema true).IsFact record) ∧
      ∃ answer rows,
        (Sample.store true).aggregateWith .binary64 (Sample.schema true) 1 Sample.query =
          .ok answer ∧
        IsGroupByAnswer .binary64 Sample.plan ((Sample.store true).groupedFacts Sample.plan) rows
          answer :=
  ⟨Sample.validate true, rfl, Sample.isFact_store true,
    aggregate_eq_groupBy (Sample.validate true) rfl (Sample.isFact_store true)
      (Query.isSome_collection? rfl _) .binary64⟩

end Store

end FactCube
