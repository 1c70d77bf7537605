import FactCube.Proofs.Facts
import FactCube.Proofs.Outcome
import FactCube.Proofs.StoredRecords
import FactCube.Store.Loading

/-!
# Loading a batch

Cutting a batch into chunks does not change what its rows are mapped to, so the first fault of a
strict load is the first fault of the batch, and it is found before the store changes. Without a
fault the records of all rows are put into the store, in the order of the rows.

Results:
* `mapRows_eq`: with any number of workers, rows are mapped one by one.
* `insertFacts_spec`: what putting facts into a reachable store does.
* `isLoad_loadRows`: a load in any mode stops without a change or puts in the facts of all rows
  that can be mapped.
* `loadRows_strict`: a strict load reports the first fault and changes nothing, or loads every row.
-/

namespace FactCube

/-! ## Chunks -/

theorem flatten_chunks {α : Type} (length pieces : Nat) (items : List α) :
    (chunks length pieces items).flatten = items := by
  induction pieces generalizing items with
  | zero =>
    rw [chunks]
    cases items <;> simp
  | succ pieces ih =>
    rw [chunks]
    cases items with
    | nil => rfl
    | cons item items =>
      rw [if_neg (by simp), List.flatten_cons, ih, List.take_append_drop]

/-- With any number of workers, rows are mapped one by one. -/
theorem mapRows_eq (schema : Schema) (rows : List Row) (workers : Nat) :
    mapRows schema rows workers = rows.map (mapRow schema) := by
  rw [mapRows]
  split
  · rfl
  · have hpieces : ∀ pieces : List (List Row),
        (pieces.map fun chunk => Task.spawn fun _ => chunk.map (mapRow schema)).flatMap Task.get =
          pieces.flatten.map (mapRow schema) := by
      intro pieces
      rw [List.flatMap_def, List.map_map, List.map_flatten]
      rfl
    rw [hpieces, flatten_chunks]

/-! ## Outcomes of a batch -/

/-- Whether the row of a number, counted from 1, is the first that cannot be mapped. -/
def IsFirstFault (schema : Schema) (rows : List Row) (found : LoadFault) : Prop :=
  ∃ before row later, rows = before ++ row :: later ∧ found.row = before.length + 1 ∧
    mapRow schema row = .error found.fault ∧ ∀ r ∈ before, ∃ record, mapRow schema r = .ok record

/-- Whether rows are mapped to records, one by one. -/
def MapsTo (schema : Schema) (rows : List Row) (records : List Record) : Prop :=
  List.Forall₂ (fun row record => mapRow schema row = .ok record) rows records

theorem MapsTo.exists_of_mem {schema : Schema} {rows : List Row} {records : List Record}
    (h : MapsTo schema rows records) {row : Row} (hrow : row ∈ rows) :
    ∃ record, mapRow schema row = .ok record := by
  induction h with
  | nil => cases hrow
  | cons hfirst _ ih =>
    rcases List.mem_cons.1 hrow with rfl | hrow
    · exact ⟨_, hfirst⟩
    · exact ih hrow

theorem sortOutcomes_of_mapsTo {schema : Schema} {rows : List Row} {records : List Record}
    (h : MapsTo schema rows records) (mode : LoadMode) (number : Nat) :
    sortOutcomes mode number (rows.map (mapRow schema)) = .ok (records, []) := by
  induction h generalizing number with
  | nil => rfl
  | cons hrow _ ih => rw [List.map_cons, hrow, sortOutcomes, ih, Except.map]

theorem sortOutcomes_of_fault {schema : Schema} {before later : List Row} {row : Row}
    {fault : RowFault} (hrow : mapRow schema row = .error fault)
    (hbefore : ∀ r ∈ before, ∃ record, mapRow schema r = .ok record) (number : Nat) :
    sortOutcomes .strict number ((before ++ row :: later).map (mapRow schema)) =
      .error ⟨number + before.length, fault⟩ := by
  induction before generalizing number with
  | nil => rw [List.nil_append, List.map_cons, hrow, sortOutcomes]; rfl
  | cons first before ih =>
    rw [List.forall_mem_cons] at hbefore
    obtain ⟨record, hrecord⟩ := hbefore.1
    rw [List.cons_append, List.map_cons, hrecord, sortOutcomes, ih hbefore.2, Except.map,
      List.length_cons, Nat.add_assoc, Nat.add_comm 1]

/-- Either every row is mapped or there is a first fault. -/
theorem mapsTo_or_fault (schema : Schema) (rows : List Row) :
    (∃ records, MapsTo schema rows records) ∨ ∃ found, IsFirstFault schema rows found := by
  induction rows with
  | nil => exact .inl ⟨[], .nil⟩
  | cons row rows ih =>
    cases hrow : mapRow schema row with
    | error fault => exact .inr ⟨⟨1, fault⟩, [], row, rows, rfl, rfl, hrow, by simp⟩
    | ok record =>
      rcases ih with ⟨records, hrecords⟩ | ⟨found, before, bad, later, rfl, hnumber, hbad, hbefore⟩
      · exact .inl ⟨record :: records, .cons hrow hrecords⟩
      · refine .inr ⟨⟨found.row + 1, found.fault⟩, row :: before, bad, later, rfl, ?_, hbad, ?_⟩
        · rw [hnumber, List.length_cons]
        · exact List.forall_mem_cons.2 ⟨⟨record, hrow⟩, hbefore⟩

/-! ## Putting facts into a store -/

/-- Puts records into a list one after the other, each under the id it gets there. -/
def putFacts (keyed : Bool) (records stored : List Record) : List Record :=
  records.foldl (fun stored record => putRecord (stamp keyed stored.length record) stored) stored

theorem contents_stamp (keyed : Bool) (size : Nat) (record : Record) :
    (stamp keyed size record).contents = record.contents := by
  cases keyed <;> rfl

/-- What is in a list after facts were put in was there before or has the contents of one of
them. -/
theorem mem_putFacts {keyed : Bool} {records stored : List Record} {other : Record}
    (h : other ∈ putFacts keyed records stored) :
    (∃ record ∈ records, other.contents = record.contents) ∨ other ∈ stored := by
  induction records generalizing stored with
  | nil => exact .inr h
  | cons record records ih =>
    rcases ih h with ⟨r, hr, hcontents⟩ | hmem
    · exact .inl ⟨r, List.mem_cons_of_mem _ hr, hcontents⟩
    · refine (mem_putRecord hmem).imp_left fun heq => ⟨record, List.mem_cons_self, ?_⟩
      rw [heq, contents_stamp]

/-- What putting some facts into a store has done to it. -/
structure IsInserted (keyed : Bool) (records : List Record) (store : Store) (replaced : Nat)
    (after : Store) : Prop where
  reachable : after.Reachable
  toList_eq : after.toList = putFacts keyed records store.toList
  collections_eq : after.collections = store.collections
  /-- Every fact has replaced a record or added one. -/
  accounted : after.size + replaced = store.size + records.length

theorem size_upsert (store : Store) (record : Record) :
    (store.upsert record).2.size + (if (store.upsert record).1 then 1 else 0) = store.size + 1 := by
  rw [Store.upsert]
  split
  · exact congrArg (· + 1) Array.size_setIfInBounds
  · exact Array.size_push _

/-- One fact replaces a record or comes last. -/
theorem IsInserted.cons {keyed : Bool} {record : Record} {records : List Record}
    {store after : Store} {replaced : Nat} (hstore : store.Reachable)
    (h : IsInserted keyed records (insertFact keyed record store).2 replaced after) :
    IsInserted keyed (record :: records) store
      (replaced + if (insertFact keyed record store).1 then 1 else 0) after := by
  have hupsert := hstore.wellIndexed.toList_upsert (stamp keyed store.size record)
  have hsize : (insertFact keyed record store).2.size +
      (if (insertFact keyed record store).1 then 1 else 0) = store.size + 1 :=
    size_upsert store _
  have haccounted := h.accounted
  constructor
  · exact h.reachable
  · rw [h.toList_eq]
    show putFacts keyed records (store.upsert _).2.toList = _
    rw [hupsert, putFacts, putFacts, List.foldl_cons, Store.length_toList]
  · rw [h.collections_eq]
    exact store.collections_upsert _
  · rw [List.length_cons]
    omega

/-- The count of replaced records goes on from where it starts. -/
theorem foldlM_insertFact_start (keyed : Bool) (records : List Record) (store : Store)
    (start : Nat) :
    (records.foldlM (fun replaced record => do
      let hit ← insertFact keyed record
      return if hit then replaced + 1 else replaced) start : StateM Store Nat) store =
    (start + (insertFacts keyed records store).1, (insertFacts keyed records store).2) := by
  unfold insertFacts
  induction records generalizing store start with
  | nil => rfl
  | cons record records ih =>
    have hnext := ih (insertFact keyed record store).2
    rw [List.foldlM_cons, List.foldlM_cons]
    refine (hnext _).trans (.trans ?_ (congrArg (fun r : Nat × Store => (start + r.1, r.2))
      (hnext (if (insertFact keyed record store).1 then 0 + 1 else 0))).symm)
    refine Prod.ext ?_ rfl
    show (if (insertFact keyed record store).1 then start + 1 else start) + _ =
      start + ((if (insertFact keyed record store).1 then 0 + 1 else 0) + _)
    split <;> omega

/-- One fact is put in before the others. -/
theorem insertFacts_cons (keyed : Bool) (record : Record) (records : List Record) (store : Store) :
    insertFacts keyed (record :: records) store =
      ((if (insertFact keyed record store).1 then 1 else 0) +
          (insertFacts keyed records (insertFact keyed record store).2).1,
        (insertFacts keyed records (insertFact keyed record store).2).2) := by
  rw [insertFacts, List.foldlM_cons]
  exact foldlM_insertFact_start keyed records (insertFact keyed record store).2 _

/-- Putting facts into a reachable store changes its list of records one fact after the other. -/
theorem insertFacts_spec {keyed : Bool} {records : List Record} {store : Store}
    (h : store.Reachable) :
    ∃ replaced after, insertFacts keyed records store = (replaced, after) ∧
      IsInserted keyed records store replaced after := by
  induction records generalizing store with
  | nil => exact ⟨0, store, rfl, h, rfl, rfl, rfl⟩
  | cons record records ih =>
    have hreachable : (insertFact keyed record store).2.Reachable := h.upsert _
    obtain ⟨replaced, after, hrun, hspec⟩ := ih hreachable
    refine ⟨_, after, ?_, hspec.cons h⟩
    rw [insertFacts_cons, hrun, Nat.add_comm]

/-! ## Loads in any mode -/

/-- A load sorts the outcomes of its rows and then puts in the facts. -/
theorem loadRows_run (schema : Schema) (mode : LoadMode) (workers : Nat) (rows : List Row)
    (store : Store) :
    (loadRows schema mode workers rows).run store =
      match sortOutcomes mode 1 (rows.map (mapRow schema)) with
      | .error found => (.error found, store)
      | .ok (records, skipped) =>
        match insertFacts (!schema.keys.isEmpty) records store with
        | (replaced, after) => (.ok ⟨records.length, replaced, skipped⟩, after) := by
  rw [loadRows, mapRows_eq]
  cases sortOutcomes mode 1 (rows.map (mapRow schema)) <;> rfl

/-- The facts of the rows that can be mapped, in order. -/
def mappedFacts (schema : Schema) (rows : List Row) : List Record :=
  rows.filterMap fun row => (mapRow schema row).toOption

theorem mem_mappedFacts {schema : Schema} {rows : List Row} {record : Record} :
    record ∈ mappedFacts schema rows ↔ ∃ row ∈ rows, mapRow schema row = .ok record := by
  rw [mappedFacts, List.mem_filterMap]
  refine exists_congr fun row => and_congr_right fun _ => ?_
  cases mapRow schema row <;> simp [Except.toOption]

theorem MapsTo.eq_filterMap {schema : Schema} {rows : List Row} {records : List Record}
    (h : MapsTo schema rows records) :
    records = rows.filterMap fun row => (mapRow schema row).toOption := by
  induction h with
  | nil => rfl
  | cons hrow _ ih => rw [List.filterMap_cons, hrow, ih]; rfl

/-- A load that does not stop keeps the facts of all rows that can be mapped. -/
theorem eq_mappedFacts_of_sortOutcomes {schema : Schema} {mode : LoadMode} {number : Nat}
    {rows : List Row} {records : List Record} {skipped : List SkippedRow}
    (h : sortOutcomes mode number (rows.map (mapRow schema)) = .ok (records, skipped)) :
    records = mappedFacts schema rows := by
  induction rows generalizing number records skipped with
  | nil =>
    cases h
    rfl
  | cons row rows ih =>
    rw [List.map_cons] at h
    rw [mappedFacts, List.filterMap_cons]
    cases hrow : mapRow schema row with
    | ok first =>
      rw [hrow, sortOutcomes, Outcome.map_eq_ok_iff] at h
      obtain ⟨⟨kept, left⟩, hrest, heq⟩ := h
      cases heq
      rw [ih hrest]
      rfl
    | error fault =>
      cases mode with
      | strict =>
        rw [hrow, sortOutcomes] at h
        cases h
      | lenient =>
        rw [hrow, sortOutcomes, Outcome.map_eq_ok_iff] at h
        obtain ⟨⟨kept, left⟩, hrest, heq⟩ := h
        cases heq
        rw [ih hrest]
        rfl

/-- What a load in any mode does: it stops and leaves the store as it was, or it puts in the facts
of all rows that can be mapped. -/
inductive IsLoad (schema : Schema) (rows : List Row) (store : Store) :
    Except LoadFault LoadReport → Store → Prop
  | stopped {found : LoadFault} : IsLoad schema rows store (.error found) store
  | loaded {report : LoadReport} {after : Store} :
    IsInserted (!schema.keys.isEmpty) (mappedFacts schema rows) store report.replaced after →
    IsLoad schema rows store (.ok report) after

/-- What a load in any mode does to a reachable store. -/
theorem isLoad_loadRows (schema : Schema) (mode : LoadMode) (workers : Nat) (rows : List Row)
    {store : Store} (h : store.Reachable) :
    IsLoad schema rows store ((loadRows schema mode workers rows).run store).1
      ((loadRows schema mode workers rows).run store).2 := by
  rw [loadRows_run]
  cases hsorted : sortOutcomes mode 1 (rows.map (mapRow schema)) with
  | error found => exact .stopped
  | ok sorted =>
    obtain ⟨records, skipped⟩ := sorted
    obtain ⟨replaced, after, hinsert, hspec⟩ :=
      @insertFacts_spec (!schema.keys.isEmpty) records store h
    rw [eq_mappedFacts_of_sortOutcomes hsorted] at hinsert hspec ⊢
    simp only [hinsert]
    exact .loaded hspec

/-- A load adds no more records than there are rows. -/
theorem IsLoad.size_le {schema : Schema} {rows : List Row} {store after : Store}
    {outcome : Except LoadFault LoadReport} (h : IsLoad schema rows store outcome after) :
    after.size ≤ store.size + rows.length := by
  cases h with
  | stopped => exact Nat.le_add_right _ _
  | loaded hinserted =>
    have hmapped : (mappedFacts schema rows).length ≤ rows.length := List.length_filterMap_le _ _
    have haccounted := hinserted.accounted
    omega

/-! ## Strict loads -/

/-- What a load of all rows has done: it put in the record of every row. -/
structure IsFullLoad (schema : Schema) (rows : List Row) (store : Store) (report : LoadReport)
    (after : Store) : Prop where
  skipped_eq : report.skipped = []
  loaded_eq : report.loaded = rows.length
  inserted : ∃ records, MapsTo schema rows records ∧
    IsInserted (!schema.keys.isEmpty) records store report.replaced after

theorem loadRows_of_mapsTo {schema : Schema} {rows : List Row} {records : List Record}
    (h : MapsTo schema rows records) (mode : LoadMode) (workers : Nat) {store : Store}
    (hstore : store.Reachable) :
    ∃ replaced after,
      (loadRows schema mode workers rows).run store =
        (.ok ⟨records.length, replaced, []⟩, after) ∧
      IsInserted (!schema.keys.isEmpty) records store replaced after := by
  obtain ⟨replaced, after, hinsert, hspec⟩ :=
    @insertFacts_spec (!schema.keys.isEmpty) records store hstore
  refine ⟨replaced, after, ?_, hspec⟩
  simp only [loadRows_run, sortOutcomes_of_mapsTo h, hinsert]

theorem loadRows_of_fault {schema : Schema} {rows : List Row} {found : LoadFault}
    (h : IsFirstFault schema rows found) (workers : Nat) (store : Store) :
    (loadRows schema .strict workers rows).run store = (.error found, store) := by
  obtain ⟨before, row, later, rfl, hnumber, hrow, hbefore⟩ := h
  simp only [loadRows_run, sortOutcomes_of_fault hrow hbefore, Nat.add_comm 1, ← hnumber]

/-- What a strict load does: it stops iff some row cannot be mapped, and then reports the first such
row and its fault and leaves the store as it was; otherwise it loads every row. -/
structure IsStrictLoad (schema : Schema) (rows : List Row) (store : Store)
    (outcome : Except LoadFault LoadReport) (after : Store) : Prop where
  stops_iff : (∃ found, outcome = .error found) ↔
    ∃ row ∈ rows, ∃ fault, mapRow schema row = .error fault
  first_fault : ∀ found, outcome = .error found → IsFirstFault schema rows found ∧ after = store
  full_load : ∀ report, outcome = .ok report → IsFullLoad schema rows store report after

/-- Strict loading is atomic, for any batch, any reachable store and any number of workers. -/
theorem loadRows_strict (schema : Schema) (workers : Nat) (rows : List Row) {store : Store}
    (h : store.Reachable) :
    ∃ outcome after, (loadRows schema .strict workers rows).run store = (outcome, after) ∧
      IsStrictLoad schema rows store outcome after := by
  rcases mapsTo_or_fault schema rows with ⟨records, hrecords⟩ | ⟨found, hfound⟩
  · obtain ⟨replaced, after, hrun, hspec⟩ := loadRows_of_mapsTo hrecords .strict workers h
    refine ⟨_, after, hrun, ⟨?_, ?_⟩, ?_, ?_⟩
    · rintro ⟨_, hcontra⟩
      cases hcontra
    · rintro ⟨row, hrow, fault, hfault⟩
      obtain ⟨record, hrecord⟩ := hrecords.exists_of_mem hrow
      rw [hrecord] at hfault
      cases hfault
    · intro _ hcontra
      cases hcontra
    · rintro _ ⟨⟩
      exact ⟨rfl, hrecords.length_eq.symm, records, hrecords, hspec⟩
  · refine ⟨.error found, store, loadRows_of_fault hfound workers store, ⟨?_, ?_⟩, ?_, ?_⟩
    · rintro -
      obtain ⟨before, row, later, rfl, -, hrow, -⟩ := hfound
      exact ⟨row, by simp, _, hrow⟩
    · exact fun _ => ⟨found, rfl⟩
    · rintro _ ⟨⟩
      exact ⟨hfound, rfl⟩
    · intro _ hcontra
      cases hcontra

namespace Sample

/-- A store with facts of the document. -/
def store (keyed : Bool) : Store :=
  Store.empty.extend
    [fact keyed "a" "North" 5, fact keyed "b" "South" 2, fact keyed "c" "North" 3]

theorem reachable_store (keyed : Bool) : (store keyed).Reachable := .extend .empty _

theorem isFact_fact (keyed : Bool) {ref region amount : String} {x : Float}
    (href : ref.isEmpty = false) (hregion : region.isEmpty = false)
    (hamount : amount.isEmpty = false) (hx : readFloat amount = .ok x) :
    (schema keyed).IsFact (fact keyed ref region x) :=
  ⟨row ref region amount, _, mapRow_row keyed href hregion hamount hx, rfl⟩

theorem isFact_facts (keyed : Bool) :
    ∀ record ∈ [fact keyed "a" "North" 5, fact keyed "b" "South" 2, fact keyed "c" "North" 3],
      (schema keyed).IsFact record := by
  intro record hrecord
  simp only [List.mem_cons, List.not_mem_nil, or_false] at hrecord
  rcases hrecord with rfl | rfl | rfl
  · exact @isFact_fact keyed _ _ "5" _ rfl rfl rfl rfl
  · exact @isFact_fact keyed _ _ "2" _ rfl rfl rfl rfl
  · exact @isFact_fact keyed _ _ "3" _ rfl rfl rfl rfl

theorem isFact_store (keyed : Bool) :
    ∀ record ∈ (store keyed).toList, (schema keyed).IsFact record :=
  Store.Reachable.empty.forall_mem_extend (List.forall_mem_nil _) (isFact_facts keyed)

end Sample

/-- The second of these rows lacks its region. -/
theorem loadRows_strict_sample :
    (Sample.store true).Reachable ∧
      ∃ outcome after,
        (loadRows (Sample.schema true) .strict 4
            [Sample.row "d" "North" "1", Sample.row "e" "" "2"]).run (Sample.store true) =
          (outcome, after) ∧
        IsStrictLoad (Sample.schema true) [Sample.row "d" "North" "1", Sample.row "e" "" "2"]
          (Sample.store true) outcome after :=
  ⟨Sample.reachable_store true, loadRows_strict _ 4 _ (Sample.reachable_store true)⟩

end FactCube
