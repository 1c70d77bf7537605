import FactCube.Cube.Collecting
import FactCube.Proofs.Collections
import FactCube.Proofs.MixedOrder
import FactCube.Proofs.ReadFacts
import FactCube.Proofs.Selection
import FactCube.Proofs.TypedFacts

/-!
# Columns

The cells of a column were read as values of one datatype. On such values the order is total, and
two of them compare as equal iff they are displayed alike, which is iff they are the same. So
whatever looks for equal values looks for equal texts: the facts of a group are those that show the
same texts, of the values that are listed no two have one text, and a cut is met by the values with
the text of one of its literals. Which fact came first in a group leaves no trace in its key.

Results:
* `Value.isColumn_of_isRead`: the order of values that were read as one datatype.
* `Store.isListing_distinctAt`: the values that are listed for a field.
* `IsGroupBy.isGroupedByText`: a group-by told by texts.
* `Store.isToldByText`: equal cells of a store are those that are displayed alike.
-/

namespace FactCube

/-! ## Values of one datatype -/

namespace Value

/-- Whether the order of values is total on some values and tells them apart as their texts do. -/
structure IsColumn (S : Set Value) : Prop extends LawfulOn S where
  total : ∀ a ∈ S, ∀ b ∈ S, (a.compare b).isLE = true ∨ (b.compare a).isLE = true
  antisymm : ∀ a ∈ S, ∀ b ∈ S, (a.compare b).isLE = true → (b.compare a).isLE = true → a = b
  eq_iff : ∀ a ∈ S, ∀ b ∈ S, a.compare b = .eq ↔ a.display = b.display
  /-- The order that keys groups and lists values is the same one. -/
  groupOrder_eq : ∀ a ∈ S, ∀ b ∈ S, a.groupOrder b = a.compare b

/-- Values that were read as one datatype are ordered as a column. -/
theorem isColumn_of_isRead {datatype : DataType} {S : Set Value}
    (h : ∀ v ∈ S, v.IsRead datatype) : IsColumn S := by
  have hexact : ExactOn S := by
    intro n x hn hx _
    have htype := (h _ hn).dataType_eq (h _ hx)
    cases htype
  refine ⟨lawfulOn_of_exactOn hexact, ?_, ?_, ?_, ?_⟩
  · intro a _ b _
    rw [compare_swap b a]
    cases a.compare b <;> simp
  · intro a ha b hb hab hba
    have heq := Std.OrientedCmp.isLE_antisymm hab hba
    exact (h a ha).eq_of_display_eq (h b hb) ((compare_eq_iff (h a ha) (h b hb)).1 heq)
  · exact fun a ha b hb => compare_eq_iff (h a ha) (h b hb)
  · exact fun a ha b hb => groupOrder_eq_compare ((h a ha).dataType_eq (h b hb))

namespace IsColumn

variable {S : Set Value}

/-- Cells that the order of groups does not tell apart are the same. -/
theorem eq_of_groupOrder (h : IsColumn S) {a b : Value} (ha : a ∈ S) (hb : b ∈ S)
    (horder : a.groupOrder b = .eq) : a = b := by
  rw [h.groupOrder_eq a ha b hb] at horder
  refine h.antisymm a ha b hb ?_ ?_
  · rw [horder]
    rfl
  · rw [compare_swap, horder]
    rfl

/-- Of ascending cells no two are displayed alike. -/
theorem nodup_display (h : IsColumn S) {values : List Value} (hvalues : ∀ v ∈ values, v ∈ S)
    (hascending : values.Pairwise fun a b => a.compare b = .lt) :
    (values.map display).Nodup := by
  rw [List.Nodup, List.pairwise_map]
  refine hascending.imp_of_mem fun {a b} ha hb hlt hdisplay => ?_
  rw [(h.eq_iff a (hvalues a ha) b (hvalues b hb)).2 hdisplay] at hlt
  cases hlt

end IsColumn

end Value

/-! ## Listed values -/

/-- Where items that compare as equal are the same, a set of them lists each item once. -/
theorem mem_toList_ofList {α : Type} {cmp : α → α → Ordering} [Std.TransCmp cmp] {items : List α}
    (h : ∀ a ∈ items, ∀ b ∈ items, cmp a b = .eq → a = b) {a : α} :
    a ∈ (Std.TreeSet.ofList items cmp).toList ↔ a ∈ items := by
  let _ : BEq α := ⟨fun a b => cmp a b == .eq⟩
  have hbeq : ∀ a b : α, (a == b) = true ↔ cmp a b = .eq := fun a b => @beq_iff_eq Ordering _ _ _ _
  have : Std.LawfulBEqCmp cmp := ⟨fun {a b} => (hbeq a b).symm⟩
  -- Nothing but items is stored; that every item is needs the hypothesis, since the first of those
  -- that compare as equal stays.
  have hsubset : ∀ items : List α, ∀ a ∈ (Std.TreeSet.ofList items cmp).toList, a ∈ items := by
    intro items
    induction items using List.reverseRecOn with
    | nil => exact fun _ h => h
    | append_singleton items last ih =>
      intro a ha
      rw [Std.TreeSet.ofList_eq_insertMany_empty, Std.TreeSet.insertMany_append,
        ← Std.TreeSet.ofList_eq_insertMany_empty, Std.TreeSet.insertMany_list_singleton,
        Std.TreeSet.toList_insert_perm.mem_iff] at ha
      split at ha
      · exact List.mem_append_left _ (ih a ha)
      · rcases List.mem_cons.1 ha with rfl | ha
        · exact List.mem_append_right _ List.mem_cons_self
        · exact List.mem_append_left _ (ih a ha)
  refine ⟨hsubset items a, fun ha => ?_⟩
  have hcontains : (Std.TreeSet.ofList items cmp).toList.contains a = true := by
    rw [Std.TreeSet.contains_toList, Std.TreeSet.contains_ofList]
    exact List.contains_iff_exists_mem_beq.2 ⟨a, ha, (hbeq a a).2 Std.ReflCmp.compare_self⟩
  obtain ⟨b, hb, heq⟩ := List.contains_iff_exists_mem_beq.1 hcontains
  rw [h a ha b (hsubset items b hb) ((hbeq a b).1 heq)]
  exact hb

/-- Whether values are those at a field of some facts that are not blank: strictly ascending, and no
two displayed alike. -/
structure IsListing (facts : List Record) (field : Field) (values : List Value) : Prop where
  ascending : values.Pairwise fun a b => a.compare b = .lt
  mem_iff : ∀ v, v ∈ values ↔ ∃ fact ∈ facts, Plan.keyAt fact.contents field = some v
  nodup : (values.map Value.display).Nodup

/-- The values at a field of some facts. -/
def cellsAt (facts : List Record) (field : Field) : Set Value :=
  {v | ∃ fact ∈ facts, valueAt fact.contents field = some v}

section Cells

variable {doc : Document} {schema : Schema} {facts : List Record}

/-- The cells of a field are ordered as a column. -/
theorem isColumn_cellsAt (hvalid : doc.validate = .ok schema)
    (hfacts : ∀ fact ∈ facts, schema.IsFact fact) (field : Field) :
    Value.IsColumn (cellsAt facts field) :=
  Value.isColumn_of_isRead fun _ ⟨fact, hfact, hvalue⟩ =>
    Document.isRead_of_valueAt hvalid (hfacts fact hfact) hvalue

theorem Plan.valueAt_of_keyAt {contents : Contents} {field : Field} {v : Value}
    (h : keyAt contents field = some v) : valueAt contents field = some v := by
  rw [keyAt, Option.filter_eq_some_iff] at h
  exact h.1

/-- Where the cells of a field are a column, the values that are listed for it are its cells. -/
theorem Store.isListing_distinctAt {store : Store} {field : Field}
    (h : Value.IsColumn (cellsAt store.toList field)) :
    IsListing store.toList field (store.distinctAt field) := by
  have hkeys : ∀ v ∈ store.toList.filterMap (fun fact => Plan.keyAt fact.contents field),
      v ∈ cellsAt store.toList field := by
    intro v hv
    obtain ⟨fact, hfact, hkey⟩ := List.mem_filterMap.1 hv
    exact ⟨fact, hfact, Plan.valueAt_of_keyAt hkey⟩
  have hmem : ∀ v, v ∈ store.distinctAt field ↔
      v ∈ store.toList.filterMap fun fact => Plan.keyAt fact.contents field := fun v =>
    mem_toList_ofList fun a ha b hb => h.eq_of_groupOrder (hkeys a ha) (hkeys b hb)
  have hcell : ∀ v ∈ store.distinctAt field, v ∈ cellsAt store.toList field :=
    fun v hv => hkeys v ((hmem v).1 hv)
  have hascending : (store.distinctAt field).Pairwise fun a b => a.compare b = .lt := by
    refine List.Pairwise.imp_of_mem ?_ Std.TreeSet.ordered_toList
    intro v w hv hw hlt
    rwa [h.groupOrder_eq v (hcell v hv) w (hcell w hw)] at hlt
  refine ⟨hascending, fun v => ?_, h.nodup_display hcell hascending⟩
  rw [hmem, List.mem_filterMap]

end Cells

/-! ## Groups -/

/-- The texts that contents show at the drilldowns of a plan. -/
def Plan.texts (plan : Plan) (contents : Contents) : List String :=
  (plan.tuple contents).map Value.display

variable {σ : Type} {arith : Arithmetic σ}

/-- The texts of the keys of a row. -/
def GroupRow.texts (row : GroupRow σ) : List String := row.keys.map Value.display

/-- Whether rows are the groups of the facts that show the same texts. -/
structure IsGroupedByText (plan : Plan) (facts : List Record) (rows : List (GroupRow σ)) :
    Prop where
  /-- No two rows are printed alike. -/
  nodup : (rows.map GroupRow.texts).Nodup
  /-- The texts that are printed are those that facts show. -/
  mem_iff : ∀ texts, texts ∈ rows.map GroupRow.texts ↔
    ∃ fact ∈ facts, plan.texts fact.contents = texts
  /-- A row counts the facts that show its texts. -/
  count_eq : ∀ row ∈ rows,
    row.count = facts.countP fun fact => plan.texts fact.contents = row.texts
  /-- Each of these facts has the keys of the row, so any of them could have made it. -/
  keys_eq : ∀ row ∈ rows, ∀ fact ∈ facts, plan.texts fact.contents = row.texts →
    plan.tuple fact.contents = row.keys

theorem eq_of_map_display {fields : List Field} {f : Field → DataType} {as bs : List Value}
    (has : List.Forall₂ (fun field (v : Value) => v.IsRead (f field)) fields as)
    (hbs : List.Forall₂ (fun field (v : Value) => v.IsRead (f field)) fields bs)
    (h : as.map Value.display = bs.map Value.display) : as = bs := by
  induction has generalizing bs with
  | nil =>
    cases hbs
    rfl
  | cons ha _ ih =>
    cases hbs with
    | cons hb hbs =>
      rw [List.map_cons, List.map_cons, List.cons.injEq] at h
      rw [ha.eq_of_display_eq hb h.1, ih hbs h.2]

/-- The values of a fact at the drilldowns were read. -/
theorem Plan.isRead_tuple {doc : Document} {schema : Schema} (hvalid : doc.validate = .ok schema)
    {plan : Plan} (hfields : ∀ field ∈ plan.drilldowns, schema.HasField field) {fact : Record}
    (hfact : schema.IsFact fact) :
    List.Forall₂ (fun field (v : Value) => v.IsRead (schema.typeOf field))
      plan.drilldowns (plan.tuple fact.contents) := by
  have hadmits := hfact.admits (Document.wellFormed_of_validate hvalid)
  rw [tuple]
  generalize plan.drilldowns = fields at hfields
  induction fields with
  | nil => exact .nil
  | cons field fields ih =>
    rw [List.forall_mem_cons] at hfields
    obtain ⟨v, hv⟩ := exists_valueAt hadmits hfields.1
    rw [List.filterMap_cons_some hv]
    exact .cons (Document.isRead_of_valueAt hvalid hfact hv) (ih hfields.2)

theorem map_texts_eq (rows : List (GroupRow σ)) :
    rows.map GroupRow.texts = (rows.map GroupRow.keys).map (List.map Value.display) := by
  rw [List.map_map]
  rfl

namespace IsGroupBy

variable {plan : Plan} {facts : List Record} {rows rows' : List (GroupRow σ)}

/-- A group-by, as far as its sums do not matter, is told by texts if the texts of facts tell their
tuples. -/
theorem isGroupedByText (h : IsGroupBy arith plan facts rows')
    (houtline : rows.map GroupRow.outline = rows'.map GroupRow.outline)
    (htexts : ∀ fact ∈ facts, ∀ other ∈ facts,
      plan.texts fact.contents = plan.texts other.contents →
        plan.tuple fact.contents = plan.tuple other.contents) :
    IsGroupedByText plan facts rows := by
  have hrows : rows.map GroupRow.texts = rows'.map GroupRow.texts := by
    rw [map_texts_eq, keys_eq_of_outline houtline, map_texts_eq]
  have hsame : ∀ row ∈ rows, ∀ fact ∈ facts, plan.texts fact.contents = row.texts →
      plan.tuple fact.contents = row.keys := by
    intro row hmem fact hfact heq
    obtain ⟨other, hother, hkeys, -⟩ := h.exists_fact houtline hmem
    rw [GroupRow.texts, hkeys] at heq
    rw [hkeys]
    exact htexts fact hfact other hother heq
  constructor
  · rw [hrows, map_texts_eq]
    refine List.Nodup.map_on (fun keys hmem keys' hmem' heq => ?_) h.nodup_keys
    obtain ⟨row, hrow, rfl⟩ := List.mem_map.1 hmem
    obtain ⟨row', hrow', rfl⟩ := List.mem_map.1 hmem'
    obtain ⟨fact, hfact, rfl⟩ := (h.mem_iff row).1 hrow
    obtain ⟨other, hother, rfl⟩ := (h.mem_iff row').1 hrow'
    exact htexts fact hfact other hother heq
  · intro texts
    rw [hrows, List.mem_map]
    constructor
    · rintro ⟨row, hmem, rfl⟩
      obtain ⟨fact, hfact, rfl⟩ := (h.mem_iff row).1 hmem
      exact ⟨fact, hfact, rfl⟩
    · rintro ⟨fact, hfact, rfl⟩
      exact ⟨_, (h.mem_iff _).2 ⟨fact, hfact, rfl⟩, rfl⟩
  · intro row hmem
    obtain ⟨-, -, -, hcount⟩ := h.exists_fact houtline hmem
    rw [hcount, Plan.factsAt, ← List.countP_eq_length_filter]
    refine List.countP_congr fun fact hfact => ?_
    rw [decide_eq_true_eq, decide_eq_true_eq]
    refine ⟨fun heq => ?_, hsame row hmem fact hfact⟩
    rw [Plan.texts, heq, GroupRow.texts]
  · exact hsame

/-- In whatever order facts are taken, the keys are the same. -/
theorem keys_eq_of_perm {facts' : List Record} (h : IsGroupBy arith plan facts rows)
    (h' : IsGroupBy arith plan facts' rows') (hperm : facts.Perm facts') :
    rows.map GroupRow.keys = rows'.map GroupRow.keys := by
  refine h.keys_eq_of_ascending (List.pairwise_map.2 h'.ascending) fun keys => ?_
  rw [h'.perm_keys.mem_iff, List.mem_dedup, List.mem_map]
  simp only [hperm.mem_iff]

end IsGroupBy

section Workers

variable {doc : Document} {schema : Schema} {plan : Plan} {records other : List Record}

/-- With any number of workers, the records that are grouped are told by their texts. -/
theorem isGroupedByText_groupRecords (hvalid : doc.validate = .ok schema)
    (hplan : schema.IsPlan plan) (hrecords : ∀ record ∈ records, schema.IsFact record)
    (members? : Option (Std.TreeSet String)) (workers : Nat) :
    IsGroupedByText plan (plan.grouped members? records)
      (groupRows arith plan.measures.length
        (groupRecords arith plan members? workers records)) := by
  have hschema := Document.wellFormed_of_validate hvalid
  have hfields := hplan.hasField hvalid
  obtain ⟨rows, hrows, houtline⟩ :=
    @exists_isGroupBy_groupRecords _ arith _ hschema _ hfields members? _ hrecords workers
  have hread : ∀ fact ∈ plan.grouped members? records,
      List.Forall₂ (fun field (v : Value) => v.IsRead (schema.typeOf field))
        plan.drilldowns (plan.tuple fact.contents) := fun fact hfact =>
    Plan.isRead_tuple hvalid hfields (hrecords fact (List.mem_filter.1 hfact).1)
  exact hrows.isGroupedByText houtline fun fact hfact other hother =>
    eq_of_map_display (hread fact hfact) (hread other hother)

/-- The keys do not depend on the order in which the records are taken. -/
theorem keys_groupRecords_of_perm (hvalid : doc.validate = .ok schema)
    (hplan : schema.IsPlan plan) (hrecords : ∀ record ∈ records, schema.IsFact record)
    (hperm : other.Perm records) (members? : Option (Std.TreeSet String))
    (workers workers' : Nat) :
    (groupRows arith plan.measures.length
        (groupRecords arith plan members? workers other)).map GroupRow.keys =
      (groupRows arith plan.measures.length
        (groupRecords arith plan members? workers' records)).map GroupRow.keys := by
  have hschema := Document.wellFormed_of_validate hvalid
  have hfields := hplan.hasField hvalid
  have hothers : ∀ record ∈ other, schema.IsFact record :=
    fun record hrecord => hrecords record (hperm.mem_iff.1 hrecord)
  obtain ⟨rows, hrows, houtline⟩ :=
    @exists_isGroupBy_groupRecords _ arith _ hschema _ hfields members? _ hothers workers
  obtain ⟨rows', hrows', houtline'⟩ :=
    @exists_isGroupBy_groupRecords _ arith _ hschema _ hfields members? _ hrecords workers'
  rw [keys_eq_of_outline houtline, keys_eq_of_outline houtline']
  exact hrows.keys_eq_of_perm hrows' (hperm.filter _)

end Workers

/-! ## Cuts -/

/-- The literals of a planned cut were read as values of its field. -/
theorem Query.isRead_of_mem_planCuts {schema : Schema} {cuts : List Cut}
    {table : List (Field × List Value)} (h : planCuts schema [] cuts = .ok table) :
    ∀ cut ∈ table, ∀ literal ∈ cut.2, literal.IsRead (schema.typeOf cut.1) := by
  intro cut hcut literal hliteral
  obtain ⟨pairs, hpairs, htable⟩ := isCutTable_of_planCuts h
  have hpair := (htable.mem_iff cut.1 literal).2 ⟨cut.2, hcut, hliteral⟩
  obtain ⟨source, -, hplanned⟩ := Outcome.exists_of_mem_mapM hpairs hpair
  exact ⟨source.value, (planCut_eq_ok_iff.1 hplanned).2⟩

theorem Schema.IsPlan.isRead_cut {schema : Schema} {plan : Plan} (h : schema.IsPlan plan) :
    ∀ cut ∈ plan.cuts, ∀ literal ∈ cut.2, literal.IsRead (schema.typeOf cut.1) := by
  cases h with
  | query hplan => exact Query.isRead_of_mem_planCuts (Query.resolved_of_plan hplan).cuts
  | view _ hplan =>
    rw [(View.drilldowns_of_plan hplan).2.2]
    exact List.forall_mem_nil _

/-- A cut whose literals were read is met by the values that were read with one of their texts. -/
theorem Plan.acceptsCut_iff {datatype : DataType} {contents : Contents} {cut : Field × List Value}
    (hcut : ∀ literal ∈ cut.2, literal.IsRead datatype) {v : Value} (hv : v.IsRead datatype)
    (hvalue : valueAt contents cut.1 = some v) :
    acceptsCut contents cut = true ↔ v.display ∈ cut.2.map Value.display := by
  rw [acceptsCut, hvalue, List.mem_map]
  simp only [List.any_eq_true, Value.same, beq_iff_eq]
  refine exists_congr fun literal => and_congr_right fun hliteral => ?_
  rw [Value.compare_eq_iff hv (hcut literal hliteral), eq_comm]

/-! ## Stores -/

namespace Store

/-- Whether everything that looks for equal cells of a store tells them by their texts. -/
structure IsToldByText (schema : Schema) (store : Store) : Prop where
  cells : ∀ field, Value.IsColumn (cellsAt store.toList field)
  distinct : ∀ field, IsListing store.toList field (store.distinctAt field)
  cuts : ∀ plan, schema.IsPlan plan → ∀ cut ∈ plan.cuts, ∀ fact ∈ store.toList,
    ∀ v, valueAt fact.contents cut.1 = some v →
      (Plan.acceptsCut fact.contents cut = true ↔ v.display ∈ cut.2.map Value.display)
  groups : ∀ plan, schema.IsPlan plan → ∀ {σ : Type} (arith : Arithmetic σ)
    (members? : Option (Std.TreeSet String)) (workers : Nat),
      IsGroupedByText plan (plan.grouped members? store.toList)
        (groupRows arith plan.measures.length
          (groupRecords arith plan members? workers store.toList))
  /-- Whichever fact of a group comes first, the keys are the same. -/
  keys : ∀ plan, schema.IsPlan plan → ∀ {σ : Type} (arith : Arithmetic σ)
    (members? : Option (Std.TreeSet String)) (workers workers' : Nat) (other : List Record),
      other.Perm store.toList →
        (groupRows arith plan.measures.length
            (groupRecords arith plan members? workers other)).map GroupRow.keys =
          (groupRows arith plan.measures.length
            (groupRecords arith plan members? workers' store.toList)).map GroupRow.keys

/-- On the values that can be read as one datatype the order is total, and equal are those that are
displayed alike. So the facts of a store are grouped, listed and cut by the texts of their cells. -/
theorem isToldByText {doc : Document} {schema : Schema} (hvalid : doc.validate = .ok schema)
    {store : Store} (hfacts : ∀ record ∈ store.toList, schema.IsFact record) :
    (∀ datatype, Value.IsColumn {v | v.IsRead datatype}) ∧ store.IsToldByText schema := by
  refine ⟨fun datatype => Value.isColumn_of_isRead fun _ hv => hv, ?_⟩
  constructor
  · exact isColumn_cellsAt hvalid hfacts
  · exact fun field => isListing_distinctAt (isColumn_cellsAt hvalid hfacts field)
  · intro plan hplan cut hcut fact hfact v hv
    exact Plan.acceptsCut_iff (hplan.isRead_cut cut hcut)
      (Document.isRead_of_valueAt hvalid (hfacts fact hfact) hv) hv
  · intro plan hplan σ arith members? workers
    exact isGroupedByText_groupRecords hvalid hplan hfacts members? workers
  · intro plan hplan σ arith members? workers workers' other hperm
    exact keys_groupRecords_of_perm hvalid hplan hfacts hperm members? workers workers'

/-- The regions and the refs of a store. -/
theorem isToldByText_sample :
    (Sample.document true).validate = .ok (Sample.schema true) ∧
      (∀ record ∈ (Sample.store true).toList, (Sample.schema true).IsFact record) ∧
      (Sample.store true).IsToldByText (Sample.schema true) :=
  ⟨Sample.validate true, Sample.isFact_store true,
    (isToldByText (Sample.validate true) (Sample.isFact_store true)).2⟩

end Store

end FactCube
