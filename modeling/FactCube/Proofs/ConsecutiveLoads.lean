import FactCube.Proofs.LenientLoads

/-!
# Consecutive loads

What a batch does to the store is a run over its facts, one after the other, and each step reads
only the store before it: its index of ids decides what is replaced, and its size is the next
ordinal. A run over two batches is therefore a run over the first and then a run over the second,
wherever the border lies and however many workers map the rows on each side of it.

Results:
* `insertFacts_append`: putting in two lists of facts is putting in one and then the other.
* `skippedRows_append`: the rows that are left out, with their numbers, on both sides of a border.
* `loadRows_append`: two loads in a row end in the store of one load of all rows, and their reports
  make up its report.
-/

namespace FactCube

/-! ## Putting in facts -/

/-- Putting in two lists of facts is putting in one and then the other. -/
theorem insertFacts_append (keyed : Bool) (first second : List Record) (store : Store) :
    insertFacts keyed (first ++ second) store =
      ((insertFacts keyed first store).1 +
          (insertFacts keyed second (insertFacts keyed first store).2).1,
        (insertFacts keyed second (insertFacts keyed first store).2).2) := by
  induction first generalizing store with
  | nil => exact Prod.ext (Nat.zero_add _).symm rfl
  | cons record first ih =>
    rw [List.cons_append, insertFacts_cons, insertFacts_cons, ih, Nat.add_assoc]

/-! ## Rows left out -/

/-- The same row under a number that is greater by an offset. -/
def SkippedRow.shift (offset : Nat) (skipped : SkippedRow) : SkippedRow :=
  { skipped with row := skipped.row + offset }

/-- Counting the rows from a later number on adds to their numbers. -/
theorem skippedRows_add (schema : Schema) (number offset : Nat) (rows : List Row) :
    skippedRows schema (number + offset) rows =
      (skippedRows schema number rows).map (SkippedRow.shift offset) := by
  induction rows generalizing number with
  | nil => rfl
  | cons row rows ih =>
    have ih := ih (number + 1)
    rw [Nat.add_right_comm] at ih
    cases hrow : mapRow schema row with
    | ok record => rw [skippedRows_cons_ok hrow, skippedRows_cons_ok hrow, ih]
    | error fault =>
      rw [skippedRows_cons_error hrow, skippedRows_cons_error hrow, ih, List.map_cons]
      rfl

/-- The rows after a border have numbers from the count of rows before it on. -/
theorem skippedRows_append (schema : Schema) (number : Nat) (rows later : List Row) :
    skippedRows schema number (rows ++ later) =
      skippedRows schema number rows ++
        (skippedRows schema number later).map (SkippedRow.shift rows.length) := by
  rw [← skippedRows_add, skippedRows, List.zipIdx_append, List.filterMap_append]
  rfl

/-! ## Loads that do not stop -/

/-- Whether a load of these rows does not stop: in strict mode, every row has to be mapped. -/
def Completes (schema : Schema) (mode : LoadMode) (rows : List Row) : Prop :=
  mode = .strict → ∀ row ∈ rows, ∃ record, mapRow schema row = .ok record

section Completes

variable {schema : Schema} {mode : LoadMode} {rows later : List Row}

theorem Completes.left (h : Completes schema mode (rows ++ later)) : Completes schema mode rows :=
  fun hmode row hrow => h hmode row (List.mem_append_left _ hrow)

theorem Completes.right (h : Completes schema mode (rows ++ later)) :
    Completes schema mode later :=
  fun hmode row hrow => h hmode row (List.mem_append_right _ hrow)

/-- Where no load stops, both modes sort the outcomes in the same way. -/
theorem sortOutcomes_of_completes (h : Completes schema mode rows) (number : Nat) :
    sortOutcomes mode number (rows.map (mapRow schema)) =
      .ok (mappedFacts schema rows, skippedRows schema number rows) := by
  cases mode with
  | lenient => exact sortOutcomes_lenient schema number rows
  | strict =>
    rcases mapsTo_or_fault schema rows with ⟨records, hrecords⟩ | ⟨_, _, row, _, rfl, -, hrow, -⟩
    · rw [← sortOutcomes_lenient, sortOutcomes_of_mapsTo hrecords, sortOutcomes_of_mapsTo hrecords]
    · obtain ⟨record, hrecord⟩ := h rfl row (by simp)
      rw [hrecord] at hrow
      cases hrow

/-- What a load that does not stop reports and leaves in the store. -/
theorem loadRows_of_completes (h : Completes schema mode rows) (workers : Nat) (store : Store) :
    (loadRows schema mode workers rows).run store =
      (.ok ⟨(mappedFacts schema rows).length,
          (insertFacts (!schema.keys.isEmpty) (mappedFacts schema rows) store).1,
          skippedRows schema 1 rows⟩,
        (insertFacts (!schema.keys.isEmpty) (mappedFacts schema rows) store).2) := by
  rw [loadRows_run, sortOutcomes_of_completes h]
  rfl

end Completes

/-! ## Two loads in a row -/

/-- The report of two loads as one, where the first was given this many rows: the counts add up, and
the rows of the second have greater numbers. -/
def LoadReport.followedBy (first second : LoadReport) (length : Nat) : LoadReport where
  loaded := first.loaded + second.loaded
  replaced := first.replaced + second.replaced
  skipped := first.skipped ++ second.skipped.map (SkippedRow.shift length)

/-- What loading rows in two batches has done, where the first batch ends in the store `between`:
the second one ends in the very store in which one load of all rows ends, and the two reports make
up its report. Every load may have its own number of workers. -/
structure IsSplitLoad (schema : Schema) (mode : LoadMode) (rows later : List Row) (store : Store)
    (first : LoadReport) (between : Store) (second : LoadReport) (after : Store) : Prop where
  first_run : ∀ workers, (loadRows schema mode workers rows).run store = (.ok first, between)
  second_run : ∀ workers, (loadRows schema mode workers later).run between = (.ok second, after)
  whole_run : ∀ workers, (loadRows schema mode workers (rows ++ later)).run store =
    (.ok (first.followedBy second rows.length), after)
  /-- The records of one batch may replace those of the other, and ordinals go on. -/
  inserted : store.Reachable → IsInserted (!schema.keys.isEmpty)
    (mappedFacts schema (rows ++ later)) store (first.replaced + second.replaced) after

/-- Loading in two batches is loading at once: in lenient mode for any rows, in strict mode where
every row is mapped. -/
theorem loadRows_append (schema : Schema) (mode : LoadMode) {rows later : List Row}
    (h : Completes schema mode (rows ++ later)) (store : Store) :
    ∃ first between second after,
      IsSplitLoad schema mode rows later store first between second after := by
  have hfacts : mappedFacts schema (rows ++ later) =
      mappedFacts schema rows ++ mappedFacts schema later := List.filterMap_append
  have hinsert := insertFacts_append (!schema.keys.isEmpty) (mappedFacts schema rows)
    (mappedFacts schema later) store
  refine ⟨_, _, _, _, fun workers => loadRows_of_completes h.left workers store,
    fun workers => loadRows_of_completes h.right workers _, fun workers => ?_, fun hstore => ?_⟩
  · rw [loadRows_of_completes h workers store, hfacts, hinsert, List.length_append,
      skippedRows_append]
    rfl
  · obtain ⟨replaced, after, hrun, hspec⟩ :=
      @insertFacts_spec (!schema.keys.isEmpty) (mappedFacts schema (rows ++ later)) store hstore
    rw [hfacts, hinsert] at hrun
    cases hrun
    exact hspec

/-- A lenient load leaves out the second of these rows, and the third replaces the first across the
border. A strict load of equal facts without keys gives the later one the later ordinal. -/
theorem loadRows_append_sample :
    (Completes (Sample.schema true) .lenient
        ([Sample.row "d" "North" "1", Sample.row "e" "" "2"] ++ [Sample.row "d" "South" "3"]) ∧
      ∃ first between second after,
        IsSplitLoad (Sample.schema true) .lenient
          [Sample.row "d" "North" "1", Sample.row "e" "" "2"] [Sample.row "d" "South" "3"]
          (Sample.store true) first between second after) ∧
    Completes (Sample.schema false) .strict
        ([Sample.row "d" "North" "5"] ++ [Sample.row "d" "North" "5"]) ∧
      ∃ first between second after,
        IsSplitLoad (Sample.schema false) .strict [Sample.row "d" "North" "5"]
          [Sample.row "d" "North" "5"] (Sample.store false) first between second after := by
  have hlenient : Completes (Sample.schema true) .lenient
      ([Sample.row "d" "North" "1", Sample.row "e" "" "2"] ++ [Sample.row "d" "South" "3"]) :=
    nofun
  have hstrict : Completes (Sample.schema false) .strict
      ([Sample.row "d" "North" "5"] ++ [Sample.row "d" "North" "5"]) := by
    rintro - row hrow
    obtain rfl : row = Sample.row "d" "North" "5" := by simpa using hrow
    exact ⟨_, @Sample.mapRow_row false _ _ "5" _ rfl rfl rfl rfl⟩
  exact ⟨⟨hlenient, loadRows_append _ _ hlenient _⟩, hstrict, loadRows_append _ _ hstrict _⟩

end FactCube
