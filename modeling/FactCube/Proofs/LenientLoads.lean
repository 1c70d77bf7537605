import FactCube.Proofs.Batches

/-!
# Lenient loads

A lenient load leaves out the rows that cannot be mapped and reports each of them with its number in
the whole batch. What it does to the store is what a strict load of the other rows does: neither the
replacements nor the ordinals of facts without keys see the rows that were left out.

Results:
* `sortOutcomes_lenient`: in lenient mode every outcome is kept or reported.
* `loadRows_lenient`: a lenient load is a strict load of the rows that can be mapped.
-/

namespace FactCube

/-! ## Rows left out -/

/-- The rows that can be mapped. -/
def mappableRows (schema : Schema) (rows : List Row) : List Row :=
  rows.filter fun row => (mapRow schema row).isOk

/-- The rows that cannot be mapped, each with its number and its fault, where the first of all rows
has the number `number`. -/
def skippedRows (schema : Schema) (number : Nat) (rows : List Row) : List SkippedRow :=
  (rows.zipIdx number).filterMap fun (row, position) =>
    match mapRow schema row with
    | .ok _ => none
    | .error fault => some ⟨position, fault⟩

section Rows

variable {schema : Schema} {row : Row}

theorem mappableRows_cons_ok {record : Record} (h : mapRow schema row = .ok record)
    (rows : List Row) : mappableRows schema (row :: rows) = row :: mappableRows schema rows :=
  List.filter_cons_of_pos (by rw [h]; rfl)

theorem mappableRows_cons_error {fault : RowFault} (h : mapRow schema row = .error fault)
    (rows : List Row) : mappableRows schema (row :: rows) = mappableRows schema rows :=
  List.filter_cons_of_neg (by rw [h]; exact Bool.false_ne_true)

theorem mappedFacts_cons_ok {record : Record} (h : mapRow schema row = .ok record)
    (rows : List Row) : mappedFacts schema (row :: rows) = record :: mappedFacts schema rows := by
  rw [mappedFacts, List.filterMap_cons, h]
  rfl

theorem mappedFacts_cons_error {fault : RowFault} (h : mapRow schema row = .error fault)
    (rows : List Row) : mappedFacts schema (row :: rows) = mappedFacts schema rows := by
  rw [mappedFacts, List.filterMap_cons, h]
  rfl

theorem skippedRows_cons_ok {record : Record} (h : mapRow schema row = .ok record) (number : Nat)
    (rows : List Row) :
    skippedRows schema number (row :: rows) = skippedRows schema (number + 1) rows := by
  rw [skippedRows, List.zipIdx_cons, List.filterMap_cons]
  simp only [h]
  rfl

theorem skippedRows_cons_error {fault : RowFault} (h : mapRow schema row = .error fault)
    (number : Nat) (rows : List Row) :
    skippedRows schema number (row :: rows) =
      ⟨number, fault⟩ :: skippedRows schema (number + 1) rows := by
  rw [skippedRows, List.zipIdx_cons, List.filterMap_cons]
  simp only [h]
  rfl

end Rows

/-- The rows that can be mapped are mapped to the facts of all rows. -/
theorem mapsTo_mappableRows (schema : Schema) (rows : List Row) :
    MapsTo schema (mappableRows schema rows) (mappedFacts schema rows) := by
  induction rows with
  | nil => exact .nil
  | cons row rows ih =>
    cases hrow : mapRow schema row with
    | ok record =>
      rw [mappableRows_cons_ok hrow, mappedFacts_cons_ok hrow]
      exact .cons hrow ih
    | error fault =>
      rw [mappableRows_cons_error hrow, mappedFacts_cons_error hrow]
      exact ih

/-- Every row is mapped or left out. -/
theorem length_mappedFacts_add (schema : Schema) (number : Nat) (rows : List Row) :
    (mappedFacts schema rows).length + (skippedRows schema number rows).length = rows.length := by
  induction rows generalizing number with
  | nil => rfl
  | cons row rows ih =>
    have ih := ih (number + 1)
    cases hrow : mapRow schema row with
    | ok record =>
      rw [mappedFacts_cons_ok hrow, skippedRows_cons_ok hrow, List.length_cons, List.length_cons]
      omega
    | error fault =>
      rw [mappedFacts_cons_error hrow, skippedRows_cons_error hrow, List.length_cons,
        List.length_cons]
      omega

/-- A row is left out under its number and with its fault iff it cannot be mapped. -/
theorem mem_skippedRows {schema : Schema} {number : Nat} {rows : List Row} {skipped : SkippedRow} :
    skipped ∈ skippedRows schema number rows ↔
      ∃ position row, rows[position]? = some row ∧ skipped.row = number + position ∧
        mapRow schema row = .error skipped.fault := by
  have hfound : ∀ (row : Row) (position : Nat),
      (match mapRow schema row with
        | .ok _ => none
        | .error fault => some (⟨position, fault⟩ : SkippedRow)) = some skipped ↔
      skipped.row = position ∧ mapRow schema row = .error skipped.fault := by
    intro row position
    obtain ⟨number, fault⟩ := skipped
    cases mapRow schema row <;> simp [eq_comm]
  rw [skippedRows, List.mem_filterMap]
  constructor
  · rintro ⟨⟨row, position⟩, hmem, heq⟩
    obtain ⟨hnumber, hrow⟩ := (hfound row position).1 heq
    rw [List.mem_zipIdx_iff_le_and_getElem?_sub] at hmem
    exact ⟨position - number, row, hmem.2, by omega, hrow⟩
  · rintro ⟨position, row, hposition, hnumber, hrow⟩
    refine ⟨(row, number + position), ?_, (hfound row _).2 ⟨hnumber, hrow⟩⟩
    rw [List.mem_zipIdx_iff_le_and_getElem?_sub, Nat.add_sub_cancel_left]
    exact ⟨Nat.le_add_right _ _, hposition⟩

/-- Rows are left out in the order of their numbers. -/
theorem pairwise_skippedRows (schema : Schema) (number : Nat) (rows : List Row) :
    (skippedRows schema number rows).Pairwise fun a b => a.row < b.row := by
  induction rows generalizing number with
  | nil => exact .nil
  | cons row rows ih =>
    cases hrow : mapRow schema row with
    | ok record =>
      rw [skippedRows_cons_ok hrow]
      exact ih (number + 1)
    | error fault =>
      rw [skippedRows_cons_error hrow, List.pairwise_cons]
      refine ⟨fun later hlater => ?_, ih (number + 1)⟩
      obtain ⟨position, -, -, hnumber, -⟩ := mem_skippedRows.1 hlater
      show number < later.row
      omega

/-- In lenient mode every outcome is kept or reported. -/
theorem sortOutcomes_lenient (schema : Schema) (number : Nat) (rows : List Row) :
    sortOutcomes .lenient number (rows.map (mapRow schema)) =
      .ok (mappedFacts schema rows, skippedRows schema number rows) := by
  induction rows generalizing number with
  | nil => rfl
  | cons row rows ih =>
    rw [List.map_cons]
    cases hrow : mapRow schema row with
    | ok record =>
      rw [sortOutcomes, ih, mappedFacts_cons_ok hrow, skippedRows_cons_ok hrow]
      rfl
    | error fault =>
      rw [sortOutcomes, ih, mappedFacts_cons_error hrow, skippedRows_cons_error hrow]
      rfl

/-! ## Loads -/

theorem length_le_length_putRecord (record : Record) (records : List Record) :
    records.length ≤ (putRecord record records).length := by
  induction records with
  | nil => exact Nat.zero_le _
  | cons other rest ih =>
    rw [putRecord]
    split
    · exact le_rfl
    · exact Nat.succ_le_succ ih

theorem length_le_length_putFacts (keyed : Bool) (records stored : List Record) :
    stored.length ≤ (putFacts keyed records stored).length := by
  induction records generalizing stored with
  | nil => exact le_rfl
  | cons record records ih => exact (length_le_length_putRecord _ _).trans (ih _)

/-- The store grows by the facts that replace no other. -/
theorem IsInserted.size_eq {keyed : Bool} {records : List Record} {store after : Store}
    {replaced : Nat} (h : IsInserted keyed records store replaced after) :
    replaced ≤ records.length ∧ after.size = store.size + (records.length - replaced) := by
  have hle : store.size ≤ after.size := by
    rw [← Store.length_toList, ← Store.length_toList, h.toList_eq]
    exact length_le_length_putFacts _ _ _
  have haccounted := h.accounted
  omega

/-- What a lenient load has done. -/
structure IsLenientLoad (schema : Schema) (rows : List Row) (store : Store) (report : LoadReport)
    (after : Store) : Prop where
  /-- A row was left out, under its number in the batch and with its own fault, iff it cannot be
  mapped. -/
  mem_skipped_iff : ∀ skipped, skipped ∈ report.skipped ↔
    ∃ position row, rows[position]? = some row ∧ skipped.row = position + 1 ∧
      mapRow schema row = .error skipped.fault
  ascending : report.skipped.Pairwise fun a b => a.row < b.row
  /-- A strict load of the rows that can be mapped, with any number of workers, loads and replaces
  as many facts and ends in the same store. -/
  strict_run : ∀ workers,
    (loadRows schema .strict workers (mappableRows schema rows)).run store =
      (.ok ⟨report.loaded, report.replaced, []⟩, after)
  accounted : report.loaded + report.skipped.length = rows.length
  replaced_le : report.replaced ≤ report.loaded
  size_eq : after.size = store.size + (report.loaded - report.replaced)

/-- A lenient load succeeds and is a strict load of the rows that can be mapped. -/
theorem loadRows_lenient (schema : Schema) (workers : Nat) (rows : List Row) {store : Store}
    (h : store.Reachable) :
    ∃ report after, (loadRows schema .lenient workers rows).run store = (.ok report, after) ∧
      IsLenientLoad schema rows store report after := by
  obtain ⟨replaced, after, hinsert, hspec⟩ :=
    @insertFacts_spec (!schema.keys.isEmpty) (mappedFacts schema rows) store h
  obtain ⟨hreplaced, hsize⟩ := hspec.size_eq
  refine ⟨⟨(mappedFacts schema rows).length, replaced, skippedRows schema 1 rows⟩, after, ?_, ?_⟩
  · simp only [loadRows_run, sortOutcomes_lenient, hinsert]
  · refine ⟨fun skipped => ?_, pairwise_skippedRows schema 1 rows, fun workers => ?_,
      length_mappedFacts_add schema 1 rows, hreplaced, hsize⟩
    · simp only [mem_skippedRows, Nat.add_comm 1]
    · simp only [loadRows_run, sortOutcomes_of_mapsTo (mapsTo_mappableRows schema rows), hinsert]

/-- The second of these rows is left out, and the third replaces a stored fact. -/
theorem loadRows_lenient_sample :
    (Sample.store true).Reachable ∧
      ∃ report after,
        (loadRows (Sample.schema true) .lenient 4
            [Sample.row "d" "North" "1", Sample.row "e" "" "2", Sample.row "a" "South" "3"]).run
          (Sample.store true) = (.ok report, after) ∧
        IsLenientLoad (Sample.schema true)
          [Sample.row "d" "North" "1", Sample.row "e" "" "2", Sample.row "a" "South" "3"]
          (Sample.store true) report after :=
  ⟨Sample.reachable_store true, loadRows_lenient _ 4 _ (Sample.reachable_store true)⟩

end FactCube
