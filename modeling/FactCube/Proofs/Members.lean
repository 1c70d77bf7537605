import FactCube.Proofs.ViewQueries

/-!
# Members of a view

The answers of a view for its members are the parts of its answer for all facts. A fact has one name
of the subject, so it falls to one member, and nothing else tells the two plans apart: what a view
groups for a member are the facts of the member among those that it groups anyway. So every row is
the sum of the rows of its keys, over all names that the facts have, the empty one among them.

Results:
* `perm_flatMap_filter`: items are those of all keys together.
* `IsGroupBy.rowOf?_eq`: the row of some keys in a group-by.
* `View.grouped_member`: the facts that a view groups for a member.
* `Store.viewWith_members`: the views for the members add up to the view for all facts.
-/

namespace FactCube

variable {σ : Type} {arith : Arithmetic σ}

/-! ## Rows of keys -/

/-- The row of some keys. -/
def rowOf? (rows : List (GroupRow σ)) (keys : List Value) : Option (GroupRow σ) :=
  rows.find? fun row => row.keys = keys

/-- The count in the row of some keys, 0 if there is no such row. -/
def countAt (rows : List (GroupRow σ)) (keys : List Value) : Nat :=
  (rowOf? rows keys).elim 0 GroupRow.count

/-- A total in the row of some keys, zero if there is no such row. -/
def totalAt (arith : Arithmetic σ) (rows : List (GroupRow σ)) (keys : List Value) (column : Nat) :
    σ :=
  (rowOf? rows keys).elim arith.zero fun row => row.totals.getD column arith.zero

/-! ## The specification -/

namespace View

/-- The text of a fact for the name of the subject of a view. -/
def memberOf? (schema : Schema) (view : View) (fact : Record) : Option String :=
  ((view.subjectField? schema nameAttribute).bind fact.value?).map Value.display

/-- The texts that some facts have for the name of the subject of a view, each once. -/
def members (schema : Schema) (view : View) (facts : List Record) : List String :=
  (facts.filterMap (view.memberOf? schema)).dedup

/-- Whether answers of a view for members are the parts of its answer for all facts. -/
structure IsPartition (arith : Arithmetic σ) (members : List String) (whole : ViewResult σ)
    (part : String → ViewResult σ) : Prop where
  measures_eq : ∀ member, (part member).measures = whole.measures
  /-- No keys have two rows. -/
  nodup_whole : (whole.rows.map GroupRow.keys).Nodup
  nodup_part : ∀ member, ((part member).rows.map GroupRow.keys).Nodup
  /-- No member has keys that the whole lacks. -/
  keys_mem : ∀ member, ∀ row ∈ (part member).rows, row.keys ∈ whole.rows.map GroupRow.keys
  count_eq : ∀ keys, countAt whole.rows keys =
    (members.map fun member => countAt (part member).rows keys).sum
  total_eq : arith.IsExact → ∀ keys column, totalAt arith whole.rows keys column =
    members.foldl
      (fun total member => arith.add total (totalAt arith (part member).rows keys column))
      arith.zero

end View

/-! ## Items by key -/

section Items

variable {α β : Type} [DecidableEq β]

/-- Items with keys are those of all keys together. -/
theorem perm_flatMap_filter {f : α → Option β} {keys : List β} (hnodup : keys.Nodup)
    {items : List α} (h : ∀ a ∈ items, ∃ k ∈ keys, f a = some k) :
    (keys.flatMap fun k => items.filter fun a => f a = some k).Perm items := by
  induction keys generalizing items with
  | nil =>
    cases items with
    | nil => exact .nil
    | cons a items =>
      obtain ⟨k, hk, -⟩ := h a List.mem_cons_self
      cases hk
  | cons k keys ih =>
    obtain ⟨hk, hkeys⟩ := List.nodup_cons.1 hnodup
    set others := items.filter fun a => !decide (f a = some k) with hothers
    have hrest : ∀ a ∈ others, ∃ k' ∈ keys, f a = some k' := by
      intro a ha
      rw [hothers, List.mem_filter] at ha
      obtain ⟨k', hk', hfa⟩ := h a ha.1
      rcases List.mem_cons.1 hk' with rfl | hk'
      · simp [hfa] at ha
      · exact ⟨k', hk', hfa⟩
    have hsame : (keys.flatMap fun k' => items.filter fun a => f a = some k') =
        keys.flatMap fun k' => others.filter fun a => f a = some k' := by
      refine List.flatMap_congr fun k' hk' => ?_
      rw [hothers, List.filter_filter]
      refine List.filter_congr fun a _ => ?_
      have hne : f a = some k' → f a ≠ some k := by
        rintro hfa hfa'
        rw [hfa, Option.some.injEq] at hfa'
        exact hk (hfa' ▸ hk')
      by_cases hfa : f a = some k' <;> simp_all
    rw [List.flatMap_cons, hsame]
    exact ((ih hkeys hrest).append_left _).trans (List.filter_append_perm _ items)

end Items

namespace Arithmetic

/-! ## Exact sums of facts -/

theorem IsExact.sumOf_perm (h : arith.IsExact) (dimension : Nat) {facts other : List Record}
    (hperm : facts.Perm other) : arith.sumOf dimension facts = arith.sumOf dimension other :=
  have : RightCommutative fun sum (fact : Record) =>
      arith.add sum (arith.amountOf dimension fact.contents) :=
    ⟨fun sum a b => by rw [h.add_assoc, h.add_assoc, h.add_comm (arith.amountOf _ a.contents)]⟩
  hperm.foldl_eq arith.zero

theorem IsExact.sumOf_append (h : arith.IsExact) (dimension : Nat) (facts other : List Record) :
    arith.sumOf dimension (facts ++ other) =
      arith.add (arith.sumOf dimension facts) (arith.sumOf dimension other) := by
  induction other using List.reverseRecOn with
  | nil =>
    rw [List.append_nil, h.add_comm]
    exact (h.zero_add _).symm
  | append_singleton other fact ih =>
    rw [← List.append_assoc, sumOf, List.foldl_append, ← sumOf, ih, sumOf, sumOf, sumOf,
      List.foldl_append]
    exact h.add_assoc _ _ _

/-- The sum of the facts of all keys is that of their sums. -/
theorem IsExact.sumOf_flatMap {β : Type} (h : arith.IsExact) (dimension : Nat) (keys : List β)
    (factsOf : β → List Record) :
    arith.sumOf dimension (keys.flatMap factsOf) =
      keys.foldl (fun sum k => arith.add sum (arith.sumOf dimension (factsOf k))) arith.zero := by
  induction keys using List.reverseRecOn with
  | nil => rfl
  | append_singleton keys k ih =>
    rw [List.flatMap_append, h.sumOf_append, ih, List.flatMap_singleton, List.foldl_append]
    rfl

end Arithmetic

/-! ## Rows of grouped facts -/

namespace IsGroupBy

variable {plan : Plan} {facts : List Record} {rows : List (GroupRow σ)}

/-- The row of some keys is that of the facts with these keys, if there are any. -/
theorem rowOf?_eq (h : IsGroupBy arith plan facts rows) (keys : List Value) :
    rowOf? rows keys =
      if plan.factsAt facts keys = [] then none else some (plan.rowAt arith facts keys) := by
  have hmem : ∀ fact, fact ∈ plan.factsAt facts keys ↔
      fact ∈ facts ∧ plan.tuple fact.contents = keys := by
    intro fact
    rw [Plan.factsAt, List.mem_filter, decide_eq_true_eq]
  rw [rowOf?]
  cases hfound : rows.find? fun row => row.keys = keys with
  | none =>
    have hempty : plan.factsAt facts keys = [] := by
      by_contra hne
      obtain ⟨fact, hfact⟩ := List.exists_mem_of_ne_nil _ hne
      obtain ⟨hfact, hkeys⟩ := (hmem fact).1 hfact
      exact List.find?_eq_none.1 hfound _ ((h.mem_iff _).2 ⟨fact, hfact, rfl⟩)
        (decide_eq_true hkeys)
    rw [if_pos hempty]
  | some row =>
    have hrow := List.mem_of_find?_eq_some hfound
    have hkeys : row.keys = keys := by simpa using List.find?_some hfound
    obtain ⟨fact, hfact, heq⟩ := (h.mem_iff row).1 hrow
    have hfact : fact ∈ plan.factsAt facts keys := by
      refine (hmem fact).2 ⟨hfact, ?_⟩
      rw [← hkeys, heq]
      rfl
    rw [if_neg (List.ne_nil_of_mem hfact), h.eq_rowAt hrow, hkeys]

theorem countAt_eq (h : IsGroupBy arith plan facts rows) (keys : List Value) :
    countAt rows keys = (plan.factsAt facts keys).length := by
  rw [countAt, h.rowOf?_eq]
  split
  · rename_i hempty
    rw [hempty]
    rfl
  · rfl

theorem totalAt_eq (h : IsGroupBy arith plan facts rows) (keys : List Value) (column : Nat) :
    totalAt arith rows keys column =
      plan.measures[column]?.elim arith.zero fun m =>
        arith.sumOf m.1 (plan.factsAt facts keys) := by
  rw [totalAt, h.rowOf?_eq]
  split
  · rename_i hempty
    rw [hempty]
    cases plan.measures[column]? <;> rfl
  · rw [Option.elim_some, Plan.rowAt, List.getD_eq_getElem?_getD, List.getElem?_map]
    cases plan.measures[column]? <;> rfl

end IsGroupBy

/-- Counts are told by rows without the values of their sums. -/
theorem countAt_outline (rows : List (GroupRow σ)) (keys : List Value) :
    countAt (rows.map GroupRow.outline) keys = countAt rows keys := by
  have hfind : rowOf? (rows.map GroupRow.outline) keys = (rowOf? rows keys).map GroupRow.outline :=
    List.find?_map
  rw [countAt, countAt, hfind]
  cases rowOf? rows keys <;> rfl

section Grouped

variable {schema : Schema} {plan : Plan} {facts : List Record}

/-- With any number of workers, a row counts the grouped facts with its keys. -/
theorem countAt_groupRecords (hschema : schema.WellFormed)
    (hfields : ∀ field ∈ plan.drilldowns, schema.HasField field)
    (hfacts : ∀ fact ∈ facts, schema.IsFact fact) (workers : Nat) (keys : List Value) :
    countAt (groupRows arith plan.measures.length (groupRecords arith plan none workers facts))
        keys = (plan.factsAt (plan.grouped none facts) keys).length := by
  obtain ⟨rows, hrows, houtline⟩ :=
    @exists_isGroupBy_groupRecords _ arith _ hschema _ hfields none _ hfacts workers
  rw [← countAt_outline, houtline, countAt_outline, hrows.countAt_eq]

/-- With any number of workers, the rows have the keys of the grouped facts, each once. -/
theorem keys_groupRecords (hschema : schema.WellFormed)
    (hfields : ∀ field ∈ plan.drilldowns, schema.HasField field)
    (hfacts : ∀ fact ∈ facts, schema.IsFact fact) (workers : Nat) :
    ((groupRows arith plan.measures.length
        (groupRecords arith plan none workers facts)).map GroupRow.keys).Nodup ∧
      ∀ keys, keys ∈ (groupRows arith plan.measures.length
          (groupRecords arith plan none workers facts)).map GroupRow.keys ↔
        ∃ fact ∈ plan.grouped none facts, plan.tuple fact.contents = keys := by
  obtain ⟨rows, hrows, houtline⟩ :=
    @exists_isGroupBy_groupRecords _ arith _ hschema _ hfields none _ hfacts workers
  rw [keys_eq_of_outline houtline]
  refine ⟨hrows.nodup_keys, fun keys => ?_⟩
  rw [hrows.perm_keys.mem_iff, List.mem_dedup, List.mem_map]

/-- With an exact addition, a total is the sum of the grouped facts with the keys of its row. -/
theorem totalAt_groupRecords (hexact : arith.IsExact) (hschema : schema.WellFormed)
    (hfields : ∀ field ∈ plan.drilldowns, schema.HasField field)
    (hfacts : ∀ fact ∈ facts, schema.IsFact fact) (workers : Nat) (keys : List Value)
    (column : Nat) :
    totalAt arith
        (groupRows arith plan.measures.length (groupRecords arith plan none workers facts)) keys
        column =
      plan.measures[column]?.elim arith.zero fun m =>
        arith.sumOf m.1 (plan.factsAt (plan.grouped none facts) keys) :=
  (isGroupBy_groupRecords hexact hschema hfields none hfacts workers).totalAt_eq keys column

end Grouped

/-! ## Facts of a member -/

namespace View

/-- The plan of a validated view, for a member or for all facts. -/
def planFor (schema : Schema) (view : View) (member? : Option String) : Plan :=
  view.planOf schema (view.comparisons schema member?)

/-- A view sums all measures, for a member as for all facts. -/
@[simp] theorem measures_planFor (schema : Schema) (view : View) (member? : Option String) :
    (view.planFor schema member?).measures = Query.allMeasures schema := rfl

/-- The facts in the row of some keys, in the answer of a view for a member or for all facts. -/
def factsAt (schema : Schema) (view : View) (facts : List Record) (member? : Option String)
    (keys : List Value) : List Record :=
  (view.planFor schema member?).factsAt ((view.planFor schema member?).grouped none facts) keys

/-- The answer of a view over some facts. -/
def answerOver (arith : Arithmetic σ) (schema : Schema) (view : View) (workers : Nat)
    (facts : List Record) (member? : Option String) : ViewResult σ :=
  view.answer arith schema (view.planFor schema member?)
    (groupRecords arith (view.planFor schema member?) none workers facts)

variable {schema : Schema} {view : View} {facts : List Record}

/-- A view groups for a member the facts of the member among those that it groups anyway. -/
theorem grouped_member {field : Field}
    (hfield : view.subjectField? schema nameAttribute = some field) (member : String)
    (facts : List Record) :
    (view.planFor schema (some member)).grouped none facts =
      ((view.planFor schema none).grouped none facts).filter
        fun fact => view.memberOf? schema fact = some member := by
  have haccepts : ∀ fact : Record, FieldPredicate.accepts ⟨field, .text member⟩ fact.contents =
      decide (view.memberOf? schema fact = some member) := by
    intro fact
    rw [memberOf?, hfield, Option.bind_some, Record.value?, FieldPredicate.accepts]
    cases valueAt fact.contents field with
    | none => rfl
    | some v => simp [Predicate.accepts, Bool.beq_eq_decide_eq]
  have hselects : ∀ fact : Record, (view.planFor schema (some member)).selects fact.contents =
      ((view.planFor schema none).selects fact.contents &&
        decide (view.memberOf? schema fact = some member)) := by
    intro fact
    rw [← haccepts]
    simp [Plan.selects, planFor, planOf, comparisons, hfield]
  have hblank : ∀ fact : Record, (view.planFor schema (some member)).isBlankIn fact.contents =
      (view.planFor schema none).isBlankIn fact.contents := fun _ => rfl
  rw [Plan.grouped, Plan.grouped, List.filter_filter]
  refine List.filter_congr fun fact _ => ?_
  rw [hselects, hblank]
  ac_rfl

theorem factsAt_member {field : Field}
    (hfield : view.subjectField? schema nameAttribute = some field) (member : String)
    (keys : List Value) :
    view.factsAt schema facts (some member) keys =
      (view.factsAt schema facts none keys).filter
        fun fact => view.memberOf? schema fact = some member := by
  rw [factsAt, grouped_member hfield, Plan.factsAt, List.filter_comm]
  rfl

/-- Every fact has a name of the subject of a view that is not about the dataset. -/
theorem WellFormed.exists_member (h : view.WellFormed schema) (hscope : view.scope ≠ .dataset) :
    ∃ field, view.subjectField? schema nameAttribute = some field ∧
      ∀ fact : Record, schema.Admits fact.contents → ∃ member,
        view.memberOf? schema fact = some member := by
  rcases h.subject with ⟨hdataset, -⟩ | ⟨-, index, d, position, hindex, hd, -, hposition⟩
  · exact absurd hdataset hscope
  · have hfield : view.subjectField? schema nameAttribute = some (.component index position) := by
      rw [subjectField?, hindex, Option.bind_some, hd, Option.bind_some, hposition]
      rfl
    refine ⟨_, hfield, fun fact hadmits => ?_⟩
    obtain ⟨v, hv⟩ := exists_valueAt hadmits (Schema.hasField_component hd hposition)
    exact ⟨v.display, by rw [memberOf?, hfield, Option.bind_some, Record.value?, hv]; rfl⟩

theorem WellFormed.hasField_drilldowns (h : view.WellFormed schema) (member? : Option String) :
    ∀ field ∈ (view.planFor schema member?).drilldowns, schema.HasField field :=
  List.forall_mem_singleton.2 (Schema.hasField_of_resolve? h.breakdown)

theorem rows_answerOver (hmatches : view.MatchesScope schema) (arith : Arithmetic σ)
    (workers : Nat) (facts : List Record) (member? : Option String) :
    (view.answerOver arith schema workers facts member?).rows =
      groupRows arith (view.planFor schema member?).measures.length
        (groupRecords arith (view.planFor schema member?) none workers facts) :=
  if_pos (scopeMatches_iff.2 hmatches)

section Validated

variable (hschema : schema.WellFormed) (h : view.WellFormed schema)
  (hfacts : ∀ fact ∈ facts, schema.IsFact fact)
include hschema h hfacts

/-- The facts in the row of some keys are those of all members together. -/
theorem WellFormed.perm_factsAt (hscope : view.scope ≠ .dataset) (keys : List Value) :
    ((view.members schema facts).flatMap fun member =>
      view.factsAt schema facts (some member) keys).Perm (view.factsAt schema facts none keys) := by
  obtain ⟨field, hfield, hmember⟩ := h.exists_member hscope
  simp only [factsAt_member hfield]
  refine perm_flatMap_filter (List.nodup_dedup _) fun fact hfact => ?_
  have hmem : fact ∈ facts := List.mem_of_mem_filter (List.mem_of_mem_filter hfact)
  obtain ⟨member, heq⟩ := hmember fact ((hfacts fact hmem).admits hschema)
  exact ⟨member, List.mem_dedup.2 (List.mem_filterMap.2 ⟨fact, hmem, heq⟩), heq⟩

/-- The answers of a view for its members are the parts of its answer for all facts. -/
theorem WellFormed.isPartition (hscope : view.scope ≠ .dataset)
    (hmatches : view.MatchesScope schema) (arith : Arithmetic σ) (workers : Nat) :
    IsPartition arith (view.members schema facts)
      (view.answerOver arith schema workers facts none)
      fun member => view.answerOver arith schema workers facts (some member) := by
  have hkeys := fun member? =>
    @keys_groupRecords _ arith _ _ _ hschema (h.hasField_drilldowns member?) hfacts workers
  have hcount := fun member? =>
    @countAt_groupRecords _ arith _ _ _ hschema (h.hasField_drilldowns member?) hfacts workers
  constructor
  · exact fun _ => rfl
  · rw [rows_answerOver hmatches]
    exact (hkeys none).1
  · intro member
    rw [rows_answerOver hmatches]
    exact (hkeys (some member)).1
  · intro member row hrow
    rw [rows_answerOver hmatches] at hrow ⊢
    obtain ⟨field, hfield, -⟩ := h.exists_member hscope
    obtain ⟨fact, hfact, heq⟩ := ((hkeys (some member)).2 row.keys).1 (List.mem_map_of_mem hrow)
    rw [grouped_member hfield] at hfact
    exact ((hkeys none).2 row.keys).2 ⟨fact, List.mem_of_mem_filter hfact, heq⟩
  · intro keys
    simp only [rows_answerOver hmatches, hcount]
    exact (h.perm_factsAt hschema hfacts hscope keys).length_eq.symm.trans List.length_flatMap
  · intro hexact keys column
    have htotal := fun member? => totalAt_groupRecords hexact hschema
      (h.hasField_drilldowns member?) hfacts workers keys column
    simp only [measures_planFor] at htotal
    simp only [rows_answerOver hmatches, measures_planFor, htotal]
    cases (Query.allMeasures schema)[column]? with
    | none => exact (List.foldl_fixed' (fun _ => hexact.zero_add _) _).symm
    | some m =>
      simp only [Option.elim_some]
      rw [← hexact.sumOf_flatMap]
      exact (hexact.sumOf_perm m.1 (h.perm_factsAt hschema hfacts hscope keys)).symm

end Validated

end View

/-! ## Views for members -/

/-- The views for the members of a store add up to the view for all facts: row by row in the counts,
and in the totals where sums are exact. -/
theorem Store.viewWith_members {doc : Document} {schema : Schema}
    (hvalid : doc.validate = .ok schema) (hmeasures : schema.measures ≠ []) {store : Store}
    (hfacts : ∀ fact ∈ store.toList, schema.IsFact fact) {entity name : String}
    {dimension? : Option String} {view : View}
    (hfound : schema.view? entity name dimension? = some view) (hscope : view.scope ≠ .dataset)
    (hmatches : view.MatchesScope schema) (arith : Arithmetic σ) (workers : Nat) :
    ∃ (whole : ViewResult σ) (part : String → ViewResult σ),
      store.viewWith arith schema workers entity name dimension? none = .ok whole ∧
      (∀ member, store.viewWith arith schema workers entity name dimension? (some member) =
        .ok (part member)) ∧
      View.IsPartition arith (view.members schema store.toList) whole part := by
  have hwell := Document.wellFormed_view hvalid (List.mem_of_find?_eq_some hfound)
  have hrun : ∀ member?, store.viewWith arith schema workers entity name dimension? member? =
      .ok (view.answerOver arith schema workers store.toList member?) := by
    intro member?
    rw [viewWith_eq, hfound]
    simp only [hwell.plan_eq hmeasures member?, hscope, false_and, if_false]
    rfl
  exact ⟨_, _, hrun none, fun member => hrun (some member),
    hwell.isPartition (Document.wellFormed_of_validate hvalid) hfacts hscope hmatches arith workers⟩

/-- The views for two recipients add up to the view for all payments. -/
theorem Store.viewWith_members_sample :
    Sample.paymentsDocument.validate = .ok Sample.paymentsSchema ∧
      Sample.paymentsSchema.measures ≠ [] ∧
      (∀ fact ∈ Sample.paymentsStore.toList, Sample.paymentsSchema.IsFact fact) ∧
      Sample.paymentsSchema.view? "entity" "stages" none = some Sample.stagesView ∧
      Sample.stagesView.scope ≠ .dataset ∧
      Sample.stagesView.MatchesScope Sample.paymentsSchema ∧
      ∃ (whole : ViewResult ℚ) (part : String → ViewResult ℚ),
        Sample.paymentsStore.viewWith .rational Sample.paymentsSchema 1 "entity" "stages" none
          none = .ok whole ∧
        (∀ member, Sample.paymentsStore.viewWith .rational Sample.paymentsSchema 1 "entity"
          "stages" none (some member) = .ok (part member)) ∧
        View.IsPartition .rational
          (Sample.stagesView.members Sample.paymentsSchema Sample.paymentsStore.toList) whole
          part := by
  have hmeasures : Sample.paymentsSchema.measures ≠ [] := List.cons_ne_nil (3, _) []
  have hscope : Sample.stagesView.scope ≠ .dataset := nofun
  exact ⟨Sample.validate_payments, hmeasures, Sample.isFact_paymentsStore, rfl, hscope,
    Sample.matchesScope_stagesView,
    Store.viewWith_members Sample.validate_payments hmeasures Sample.isFact_paymentsStore rfl
      hscope Sample.matchesScope_stagesView .rational 1⟩

end FactCube
