import FactCube.Proofs.Collections
import FactCube.Proofs.OrderedMap
import FactCube.Proofs.TypedFacts

/-!
# Collections that grow

Collecting extends a collection by the facts that a query selects. The plan and the collection that
the query is restricted to are looked up before the store changes, so a query that fails leaves it
as it was. The ids are then added one at a time. A query may be restricted to the very collection
that it extends; it adds nothing then, and neither does any query that is repeated at once.

Whatever is done with a store, facts stay in it until it is cleared, and then the collections go
with them. So no collection ever holds an id without a fact.

Results:
* `collectFacts_run`: collecting step by step, with the store as a state.
* `Store.isCollecting_collectFacts`: what collecting does to any store, and when it fails.
* `Store.isCollecting_and_isClosed`: this, and that after any run collections hold ids of facts.
-/

namespace FactCube

/-! ## Collecting step by step -/

/-- Adds ids to a collection of the store, one after the other, and counts the new ones. -/
def addMembers (name : String) (ids : List String) : StateM Store Nat :=
  ids.foldlM
    (fun added id => do
      let isNew ← modifyGet fun store => store.addTo name id
      return if isNew then added + 1 else added)
    0

/-- Adds the facts a query selects to a collection of the store and counts the new ones. -/
def collectFacts (schema : Schema) (query : Query) (name : String) :
    ExceptT QueryFault (StateM Store) Nat := do
  let plan ← ExceptT.mk (pure (query.plan schema))
  let store ← get
  let members? ← ExceptT.mk (pure (store.membersFor plan))
  addMembers name (store.selectedIds plan members?)

/-- The count of new ids goes on from where it starts. -/
theorem foldlM_addTo_start (name : String) (ids : List String) (store : Store) (start : Nat) :
    (ids.foldlM (fun added id => do
      let isNew ← modifyGet fun store => store.addTo name id
      return if isNew then added + 1 else added) start : StateM Store Nat) store =
    (start + (store.addAll name ids).1, (store.addAll name ids).2) := by
  induction ids generalizing store start with
  | nil => rfl
  | cons id ids ih =>
    rw [List.foldlM_cons, Store.addAll_cons]
    refine (ih (store.addTo name id).2 _).trans (Prod.ext ?_ rfl)
    show (if (store.addTo name id).1 then start + 1 else start) + _ =
      start + ((if (store.addTo name id).1 then 1 else 0) + _)
    split <;> omega

theorem addMembers_run (name : String) (ids : List String) (store : Store) :
    (addMembers name ids).run store = store.addAll name ids := by
  refine (foldlM_addTo_start name ids store 0).trans ?_
  rw [Nat.zero_add]

/-- Step by step, collecting gives the same count and the same store, and a fault before the store
has changed. -/
theorem collectFacts_run (schema : Schema) (query : Query) (name : String) (store : Store) :
    (collectFacts schema query name).run store =
      match store.collect schema query name with
      | .ok (added, after) => (.ok added, after)
      | .error fault => (.error fault, store) := by
  have hadd : ∀ ids, addMembers name ids store = store.addAll name ids :=
    fun ids => addMembers_run name ids store
  rw [collectFacts, Store.collect]
  cases query.plan schema with
  | error fault => rfl
  | ok plan =>
    show (ExceptT.mk (pure (store.membersFor plan)) >>= fun members? =>
        (addMembers name (store.selectedIds plan members?) : ExceptT QueryFault (StateM Store) Nat))
        store =
      match store.membersFor plan >>= fun members? =>
        .ok (store.addAll name (store.selectedIds plan members?)) with
      | .ok (added, after) => (.ok added, after)
      | .error fault => (.error fault, store)
    cases store.membersFor plan with
    | error fault => rfl
    | ok members? =>
      show (Except.ok (addMembers name (store.selectedIds plan members?) store).1,
          (addMembers name (store.selectedIds plan members?) store).2) = _
      rw [hadd]
      rfl

namespace Store

/-! ## The specification -/

/-- The ids of the facts that a plan can see and selects. -/
def matchingIds (store : Store) (plan : Plan) : Finset String :=
  ((store.matching plan).map Record.id).toFinset

/-- Why collecting fails: the query has no plan, or it is restricted to an unknown collection. -/
inductive IsRefused (schema : Schema) (query : Query) (store : Store) : QueryFault → Prop
  | plan {fault : QueryFault} : query.plan schema = .error fault →
    IsRefused schema query store fault
  | collection {plan : Plan} {own : String} : query.plan schema = .ok plan →
    query.collection? = some own → store.collection? own = none →
    IsRefused schema query store (.unknownCollection own)

/-- What collecting does to a store. -/
structure IsCollecting (schema : Schema) (query : Query) (name : String) (store : Store)
    (outcome : Except QueryFault Nat) (after : Store) : Prop where
  collect_eq : store.collect schema query name = outcome.map fun added => (added, after)
  error_iff : ∀ fault, outcome = .error fault ↔ store.IsRefused schema query fault
  unchanged : ∀ fault, outcome = .error fault → after = store
  extended : ∀ added, outcome = .ok added → ∃ plan, query.plan schema = .ok plan ∧
    store.IsExtended name (store.matchingIds plan) added after
  /-- Where ids tell the facts apart, the new facts are counted. -/
  added_eq : store.Reachable → ∀ added plan, outcome = .ok added → query.plan schema = .ok plan →
    added = (store.matching plan).countP fun fact => fact.id ∉ store.idsIn name
  /-- A query that is restricted to the collection that it extends finds nothing new. -/
  eq_zero : query.collection? = some name → ∀ added, outcome = .ok added → added = 0
  /-- Repeated at once, it finds nothing new. -/
  again : ∀ added, outcome = .ok added → ∃ again,
    (collectFacts schema query name).run after = (.ok 0, again) ∧
      after.IsExtended name ∅ 0 again

/-- What is done with a store from outside. -/
inductive Action
  | load (schema : Schema) (mode : LoadMode) (workers : Nat) (rows : List Row)
  | upsert (record : Record)
  | extend (records : List Record)
  | collect (schema : Schema) (query : Query) (name : String)
  | removeFrom (name id : String)
  | clear

/-- The store after an action. -/
def perform (store : Store) : Action → Store
  | .load schema mode workers rows => ((loadRows schema mode workers rows).run store).2
  | .upsert record => (store.upsert record).2
  | .extend records => store.extend records
  | .collect schema query name => ((collectFacts schema query name).run store).2
  | .removeFrom name id => (store.removeFrom name id).2
  | .clear => store.clear

/-- The store that a run of actions makes of the empty one. -/
def afterRun (actions : List Action) : Store := actions.foldl perform empty

/-- Whether every collection of a store holds ids of its facts only. -/
def IsClosed (store : Store) : Prop :=
  ∀ name, ∀ id ∈ store.idsIn name, id ∈ store.toList.map Record.id

/-! ## Collecting -/

theorem mem_matchingIds {store : Store} {plan : Plan} {id : String} :
    id ∈ store.matchingIds plan ↔ ∃ fact ∈ store.matching plan, fact.id = id := by
  rw [matchingIds, List.mem_toFinset, List.mem_map]

/-- A plan that is restricted to a collection sees the facts whose ids are in it. -/
theorem isVisible_iff {store : Store} {plan : Plan} {record : Record} :
    store.isVisible plan record = true ↔
      ∀ own, plan.collection? = some own → record.id ∈ store.idsIn own := by
  rw [isVisible]
  cases hcollection : plan.collection? with
  | none => simp
  | some own =>
    simp only [Option.some.injEq, forall_eq', mem_idsIn]
    cases store.collection? own <;> simp

/-- What a plan matches is in the collection that it is restricted to. -/
theorem matchingIds_subset {store : Store} {plan : Plan} {own : String}
    (hown : plan.collection? = some own) : store.matchingIds plan ⊆ store.idsIn own := by
  intro id hid
  obtain ⟨fact, hfact, rfl⟩ := mem_matchingIds.1 hid
  obtain ⟨-, hfact⟩ := List.mem_filter.1 hfact
  exact isVisible_iff.1 (Bool.and_eq_true_iff.1 hfact).1 own hown

namespace IsExtended

variable {store after : Store} {name : String} {ids : Finset String} {added : Nat} {plan : Plan}

/-- A plan sees the same facts after its matches were added, even if it is restricted to the
collection that was extended: what it matches was there. -/
theorem isVisible_eq (h : store.IsExtended name (store.matchingIds plan) added after)
    (record : Record) : after.isVisible plan record = store.isVisible plan record := by
  rw [Bool.eq_iff_iff, isVisible_iff, isVisible_iff]
  refine forall₂_congr fun own hown => ?_
  rw [h.mem_idsIn_iff, or_iff_left_iff_imp]
  exact fun hmatching => matchingIds_subset hown hmatching.2

theorem matching_eq (h : store.IsExtended name (store.matchingIds plan) added after) :
    after.matching plan = store.matching plan := by
  simp only [matching, h.toList_eq, h.isVisible_eq]

end IsExtended

/-- Where ids tell the facts apart, the facts that are new are as many as their ids. -/
theorem card_matchingIds_sdiff {store : Store} (hstore : store.Reachable) (plan : Plan)
    (known : Finset String) :
    (store.matchingIds plan \ known).card =
      (store.matching plan).countP fun fact => fact.id ∉ known := by
  have hnodup : ((store.matching plan).map Record.id).Nodup :=
    hstore.wellIndexed.nodup_ids.sublist (List.filter_sublist.map _)
  have hnew : store.matchingIds plan \ known =
      (((store.matching plan).map Record.id).filter fun id => id ∉ known).toFinset := by
    ext id
    simp [matchingIds]
  rw [hnew, List.toFinset_card_of_nodup (hnodup.filter _), ← List.countP_eq_length_filter,
    List.countP_map]
  rfl

section Outcomes

variable {schema : Schema} {query : Query} {store : Store} {plan : Plan} {fault : QueryFault}

theorem IsRefused.collect_eq (h : store.IsRefused schema query fault) (name : String) :
    store.collect schema query name = .error fault := by
  cases h with
  | plan hplan =>
    rw [collect, hplan]
    rfl
  | @collection plan own hplan hown hnone =>
    rw [← (Query.resolved_of_plan hplan).collection?] at hown
    have hunknown : store.membersFor plan = .error (.unknownCollection own) := by
      simp only [membersFor, hown, hnone]
    rw [collect, hplan]
    show (store.membersFor plan >>= _) = _
    rw [hunknown]
    rfl

/-- Collecting is refused, or it adds the matches of the plan. -/
theorem isRefused_or_collect_eq (schema : Schema) (query : Query) (store : Store) (name : String) :
    (∃ fault, store.IsRefused schema query fault) ∨
      ∃ plan, query.plan schema = .ok plan ∧ store.collect schema query name =
        .ok (store.addAll name ((store.matching plan).map Record.id)) := by
  cases hplan : query.plan schema with
  | error fault => exact .inl ⟨fault, .plan hplan⟩
  | ok plan =>
    by_cases hown : ∀ own, query.collection? = some own → (store.collection? own).isSome = true
    · exact .inr ⟨plan, rfl, collect_of_plan hplan hown name⟩
    · obtain ⟨own, hown⟩ := not_forall.1 hown
      obtain ⟨hown, hnone⟩ := Classical.not_imp.1 hown
      exact .inl ⟨_, .collection hplan hown (by simpa using hnone)⟩

/-- Collecting that is refused leaves the store as it is. -/
theorem IsRefused.isCollecting (h : store.IsRefused schema query fault) (name : String) :
    store.IsCollecting schema query name (.error fault) store := by
  constructor
  · exact h.collect_eq name
  · intro other
    constructor
    · rintro ⟨⟩
      exact h
    · intro hother
      have hsame := (h.collect_eq name).symm.trans (hother.collect_eq name)
      rw [Except.error.injEq] at hsame
      rw [hsame]
  · exact fun _ _ => rfl
  · exact fun _ hok => nomatch hok
  · exact fun _ _ _ hok => nomatch hok
  · exact fun _ _ hok => nomatch hok
  · exact fun _ hok => nomatch hok

/-- Extending collections gives no reason to refuse a query. -/
theorem IsExtended.isRefused {after : Store} {name : String} {ids : Finset String} {added : Nat}
    (h : store.IsExtended name ids added after) (hrefused : after.IsRefused schema query fault) :
    store.IsRefused schema query fault := by
  cases hrefused with
  | plan hplan => exact .plan hplan
  | @collection plan own hplan hown hnone =>
    refine .collection hplan hown ?_
    by_contra hsome
    have hafter := h.isSome_of_isSome (Option.isSome_iff_ne_none.2 hsome)
    rw [hnone] at hafter
    cases hafter

/-- Where a query is not refused, collecting extends the collection by the matches of its plan. -/
theorem exists_run_eq (hplan : query.plan schema = .ok plan)
    (hrefused : ∀ fault, ¬store.IsRefused schema query fault) (name : String) :
    ∃ added after, (collectFacts schema query name).run store = (.ok added, after) ∧
      store.collect schema query name = .ok (added, after) ∧
      store.IsExtended name (store.matchingIds plan) added after := by
  rcases isRefused_or_collect_eq schema query store name with ⟨fault, hfault⟩ | ⟨found, hfound, hok⟩
  · exact absurd hfault (hrefused fault)
  · obtain rfl := Except.ok.inj (hplan.symm.trans hfound)
    refine ⟨(store.addAll name _).1, (store.addAll name _).2, ?_, hok,
      isExtended_addAll store name _⟩
    rw [collectFacts_run, hok]

end Outcomes

/-- What collecting does to any store. -/
theorem isCollecting_collectFacts (schema : Schema) (query : Query) (name : String)
    (store : Store) :
    store.IsCollecting schema query name ((collectFacts schema query name).run store).1
      ((collectFacts schema query name).run store).2 := by
  by_cases hrefused : ∃ fault, store.IsRefused schema query fault
  · obtain ⟨fault, hfault⟩ := hrefused
    rw [collectFacts_run, hfault.collect_eq name]
    exact hfault.isCollecting name
  · rw [not_exists] at hrefused
    cases hplan : query.plan schema with
    | error fault => exact absurd (.plan hplan) (hrefused fault)
    | ok plan =>
      obtain ⟨added, after, hrun, hcollect, hextended⟩ := exists_run_eq hplan hrefused name
      rw [hrun]
      constructor
      · exact hcollect
      · exact fun fault => iff_of_false (fun h => nomatch h) (hrefused fault)
      · exact fun _ h => nomatch h
      · rintro _ ⟨⟩
        exact ⟨plan, hplan, hextended⟩
      · rintro hstore _ other ⟨⟩ hother
        obtain rfl := Except.ok.inj (hplan.symm.trans hother)
        rw [hextended.added_eq, card_matchingIds_sdiff hstore]
      · rintro hown _ ⟨⟩
        rw [← (Query.resolved_of_plan hplan).collection?] at hown
        exact (hextended.of_subset (matchingIds_subset hown)).1
      · rintro _ ⟨⟩
        obtain ⟨added', again, hrun', -, hextended'⟩ :=
          exists_run_eq hplan (fun fault h => hrefused fault (hextended.isRefused h)) name
        have hids : after.matchingIds plan ⊆ after.idsIn name := by
          rw [matchingIds, hextended.matching_eq, hextended.idsIn_eq]
          exact Finset.subset_union_right
        obtain ⟨rfl, hsame⟩ := hextended'.of_subset hids
        exact ⟨again, hrun', hsame⟩

/-! ## Runs -/

section Closed

variable {store after : Store}

/-- A store stays closed if no collection gets an id without a fact and no fact goes. -/
theorem IsClosed.of_subset (h : store.IsClosed)
    (hids : ∀ id ∈ store.toList.map Record.id, id ∈ after.toList.map Record.id)
    (hmembers : ∀ name, ∀ id ∈ after.idsIn name,
      id ∈ store.idsIn name ∨ id ∈ after.toList.map Record.id) : after.IsClosed := by
  intro name id hid
  rcases hmembers name id hid with hid | hid
  · exact hids id (h name id hid)
  · exact hid

/-- Where the collections stay as they are, it is enough that no fact goes. -/
theorem IsClosed.of_collections_eq (h : store.IsClosed)
    (hcollections : after.collections = store.collections)
    (hids : ∀ id ∈ store.toList.map Record.id, id ∈ after.toList.map Record.id) :
    after.IsClosed := by
  have hsame : ∀ name, after.idsIn name = store.idsIn name := fun name =>
    idsIn_congr (by rw [collection?, hcollections, collection?])
  exact h.of_subset hids fun name id hid => .inl (hsame name ▸ hid)

theorem mem_map_id_putRecord {record : Record} {records : List Record} {id : String}
    (h : id ∈ records.map Record.id) : id ∈ (putRecord record records).map Record.id := by
  rw [map_id_putRecord]
  split
  · exact h
  · exact List.mem_append_left _ h

theorem mem_map_id_putFacts {keyed : Bool} {records stored : List Record} {id : String}
    (h : id ∈ stored.map Record.id) : id ∈ (putFacts keyed records stored).map Record.id := by
  induction records generalizing stored with
  | nil => exact h
  | cons record records ih => exact ih (mem_map_id_putRecord h)

theorem IsClosed.upsert (h : store.IsClosed) (hstore : store.Reachable) (record : Record) :
    (store.upsert record).2.IsClosed := by
  refine h.of_collections_eq (collections_upsert store record) fun id hid => ?_
  rw [hstore.wellIndexed.toList_upsert]
  exact mem_map_id_putRecord hid

theorem IsClosed.extend (h : store.IsClosed) (hstore : store.Reachable) (records : List Record) :
    (store.extend records).IsClosed := by
  induction records generalizing store with
  | nil => exact h
  | cons record records ih => exact ih (h.upsert hstore record) (.upsert record hstore)

theorem IsClosed.of_isLoad (h : store.IsClosed) {schema : Schema} {rows : List Row}
    {outcome : Except LoadFault LoadReport} (hload : IsLoad schema rows store outcome after) :
    after.IsClosed := by
  cases hload with
  | stopped => exact h
  | loaded hinserted =>
    refine h.of_collections_eq hinserted.collections_eq fun id hid => ?_
    rw [hinserted.toList_eq]
    exact mem_map_id_putFacts hid

/-- The ids that collecting adds are those of facts. -/
theorem IsClosed.of_isExtended (h : store.IsClosed) {plan : Plan} {name : String} {added : Nat}
    (hextended : store.IsExtended name (store.matchingIds plan) added after) :
    after.IsClosed := by
  refine h.of_subset (fun id hid => by rwa [hextended.toList_eq]) fun other id hid => ?_
  refine (hextended.mem_idsIn_iff.1 hid).imp_right fun hid => ?_
  obtain ⟨fact, hfact, rfl⟩ := mem_matchingIds.1 hid.2
  rw [hextended.toList_eq]
  exact List.mem_map_of_mem (List.mem_filter.1 hfact).1

theorem IsClosed.removeFrom (h : store.IsClosed) (name id : String) :
    (store.removeFrom name id).2.IsClosed := by
  have hlist : (store.removeFrom name id).2.toList = store.toList := by
    rw [toList, toList, (removeFrom_records store name id).1]
  refine h.of_subset (fun id hid => by rwa [hlist]) fun other member hmember => .inl ?_
  by_cases hother : other = name
  · subst hother
    rw [idsIn_removeFrom] at hmember
    exact Finset.mem_of_mem_erase hmember
  · rwa [idsIn_congr (collection?_removeFrom_of_ne store id hother)] at hmember

theorem isClosed_empty : empty.IsClosed := by
  intro name id hid
  have hnone : empty.collection? name = none := Std.TreeMap.getElem?_emptyc
  rw [idsIn_of_none hnone] at hid
  exact absurd hid (Finset.notMem_empty id)

end Closed

/-- An action leads from a reachable and closed store to another one. -/
theorem perform_reachable_closed {store : Store} (hstore : store.Reachable) (h : store.IsClosed)
    (action : Action) : (store.perform action).Reachable ∧ (store.perform action).IsClosed := by
  cases action with
  | load schema mode workers rows =>
    have hload := isLoad_loadRows schema mode workers rows hstore
    exact ⟨reachable_of_isLoad hload hstore, h.of_isLoad hload⟩
  | upsert record => exact ⟨.upsert record hstore, h.upsert hstore record⟩
  | extend records => exact ⟨hstore.extend records, h.extend hstore records⟩
  | collect schema query name =>
    rw [perform, collectFacts_run]
    rcases isRefused_or_collect_eq schema query store name with ⟨fault, hfault⟩ | ⟨plan, -, hok⟩
    · rw [hfault.collect_eq name]
      exact ⟨hstore, h⟩
    · rw [hok]
      exact ⟨hstore.addAll name _, h.of_isExtended (isExtended_addAll store name _)⟩
  | removeFrom name id => exact ⟨.removeFrom name id hstore, h.removeFrom name id⟩
  | clear => exact ⟨.clear hstore, isClosed_empty⟩

/-- Every run leads to a reachable and closed store. -/
theorem afterRun_reachable_closed (actions : List Action) :
    (afterRun actions).Reachable ∧ (afterRun actions).IsClosed := by
  induction actions using List.reverseRecOn with
  | nil => exact ⟨.empty, isClosed_empty⟩
  | append_singleton actions action ih =>
    rw [afterRun, List.foldl_append]
    exact perform_reachable_closed ih.1 ih.2 action

/-- Collecting leaves any store as it is or adds exactly the new matches to the collection, and
after any run every collection holds ids of facts only. -/
theorem isCollecting_and_isClosed :
    (∀ (schema : Schema) (query : Query) (name : String) (store : Store),
      store.IsCollecting schema query name ((collectFacts schema query name).run store).1
        ((collectFacts schema query name).run store).2) ∧
      ∀ actions, (afterRun actions).Reachable ∧ (afterRun actions).IsClosed :=
  ⟨isCollecting_collectFacts, afterRun_reachable_closed⟩

end Store

end FactCube
