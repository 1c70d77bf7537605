import FactCube.Proofs.LenientLoads
import FactCube.Proofs.Reordering

/-!
# Loads without keys

Where a dataset has no keys, the ordinal folded into the id of a fact is the count of the facts
stored before it. Between two clears these counts go up by one from fact to fact, over all batches,
and rows that are skipped take none of them. So no two stored facts have one ordinal, and unless the
hash collides every mapped row is a fact of its own, however often the same row comes.

Results:
* `loadRows_outcome`: a load stops and brings nothing, or puts in the facts it brings.
* `IsKept.load`: a load adds the facts it brings behind those kept and replaces none.
* `loadRows_keyless`: over any loads and clears, every mapped row is kept as a fact of its own.
-/

namespace FactCube

/-! ## The facts of a load -/

/-- The facts that a load brings: those of all rows that can be mapped, and none where a strict load
stops. -/
def loadedFacts (schema : Schema) (mode : LoadMode) (rows : List Row) : List Record :=
  match mode with
  | .strict => if rows.all fun row => (mapRow schema row).isOk then mappedFacts schema rows else []
  | .lenient => mappedFacts schema rows

theorem loadedFacts_of_mapsTo {schema : Schema} {rows : List Row} {records : List Record}
    (h : MapsTo schema rows records) (mode : LoadMode) :
    loadedFacts schema mode rows = records := by
  have hall : (rows.all fun row => (mapRow schema row).isOk) = true := by
    rw [List.all_eq_true]
    intro row hrow
    obtain ⟨record, hrecord⟩ := h.exists_of_mem hrow
    rw [hrecord]
    rfl
  rw [h.eq_filterMap]
  cases mode with
  | strict => exact if_pos hall
  | lenient => rfl

theorem loadedFacts_of_fault {schema : Schema} {rows : List Row} {found : LoadFault}
    (h : IsFirstFault schema rows found) : loadedFacts schema .strict rows = [] := by
  obtain ⟨before, row, later, rfl, -, hrow, -⟩ := h
  refine if_neg fun hall => ?_
  have hok := List.all_eq_true.1 hall row (by simp)
  rw [hrow] at hok
  cases hok

/-- A load stops and brings nothing, or puts in the facts it brings. -/
theorem loadRows_outcome (schema : Schema) (mode : LoadMode) (workers : Nat) (rows : List Row)
    {store : Store} (h : store.Reachable) :
    (∃ found, (loadRows schema mode workers rows).run store = (.error found, store) ∧
      loadedFacts schema mode rows = []) ∨
    ∃ report after, (loadRows schema mode workers rows).run store = (.ok report, after) ∧
      report.loaded = (loadedFacts schema mode rows).length ∧
      IsInserted (!schema.keys.isEmpty) (loadedFacts schema mode rows) store report.replaced
        after := by
  cases mode with
  | strict =>
    rcases mapsTo_or_fault schema rows with ⟨records, hrecords⟩ | ⟨found, hfound⟩
    · obtain ⟨replaced, after, hrun, hspec⟩ := loadRows_of_mapsTo hrecords .strict workers h
      rw [loadedFacts_of_mapsTo hrecords]
      exact .inr ⟨_, after, hrun, rfl, hspec⟩
    · exact .inl ⟨found, loadRows_of_fault hfound workers store, loadedFacts_of_fault hfound⟩
  | lenient =>
    obtain ⟨replaced, after, hinsert, hspec⟩ :=
      @insertFacts_spec (!schema.keys.isEmpty) (mappedFacts schema rows) store h
    refine .inr ⟨⟨_, replaced, skippedRows schema 1 rows⟩, after, ?_, rfl, hspec⟩
    simp only [loadRows_run, sortOutcomes_lenient, hinsert, loadedFacts]

/-! ## Sessions -/

/-- A step of a session: a load, or a clear of the store. -/
inductive LoadStep
  | load (mode : LoadMode) (workers : Nat) (rows : List Row)
  | clear

/-- The store after a step. -/
def LoadStep.run (schema : Schema) (store : Store) : LoadStep → Store
  | .load mode workers rows => ((loadRows schema mode workers rows).run store).2
  | .clear => store.clear

/-- The store that some steps, one after the other, make of the empty one. -/
def storeAfter (schema : Schema) (steps : List LoadStep) : Store :=
  steps.foldl (LoadStep.run schema) Store.empty

/-- The facts brought since the last clear, after one more step. -/
def LoadStep.keep (schema : Schema) (kept : List Record) : LoadStep → List Record
  | .load mode _ rows => kept ++ loadedFacts schema mode rows
  | .clear => []

/-- The facts that the loads of some steps have brought since the last clear, in order. -/
def keptFacts (schema : Schema) (steps : List LoadStep) : List Record :=
  steps.foldl (LoadStep.keep schema) []

/-! ## Ordinals of a session -/

theorem stampAll_append (keyed : Bool) (size : Nat) (records more : List Record) :
    stampAll keyed size (records ++ more) =
      stampAll keyed size records ++ stampAll keyed (size + records.length) more := by
  rw [stampAll, List.zipIdx_append, List.map_append]
  rfl

theorem length_stampAll (keyed : Bool) (size : Nat) (records : List Record) :
    (stampAll keyed size records).length = records.length := by
  rw [stampAll, List.length_map, List.length_zipIdx]

/-- Whether a store holds some facts one behind the other, each under its ordinal. -/
structure IsKept (kept : List Record) (store : Store) : Prop where
  reachable : store.Reachable
  toList_eq : store.toList = stampAll false 0 kept

theorem IsKept.size_eq {kept : List Record} {store : Store} (h : IsKept kept store) :
    store.size = kept.length := by
  rw [← Store.length_toList, h.toList_eq, length_stampAll]

/-- What a load has done that added the facts it brought and replaced none. -/
structure AddsOnly (brought : List Record) (store : Store) (report : LoadReport) (after : Store) :
    Prop where
  replaced_eq : report.replaced = 0
  loaded_eq : report.loaded = brought.length
  size_eq : after.size = store.size + report.loaded

/-- Facts without keys come behind those kept and replace none. -/
theorem IsKept.insert {kept brought : List Record} {store after : Store} (h : IsKept kept store)
    (hids : ((stampAll false 0 (kept ++ brought)).map Record.id).Nodup) {replaced : Nat}
    (hinserted : IsInserted false brought store replaced after) :
    IsKept (kept ++ brought) after ∧ replaced = 0 := by
  have hordinals : stampAll false store.toList.length brought =
      stampAll false (0 + kept.length) brought := by
    rw [Store.length_toList, h.size_eq, Nat.zero_add]
  have hlist : after.toList = stampAll false 0 (kept ++ brought) := by
    rw [stampAll_append, ← h.toList_eq, ← hordinals] at hids ⊢
    rw [hinserted.toList_eq, putFacts_of_nodup hids]
  have hafter : IsKept (kept ++ brought) after := ⟨hinserted.reachable, hlist⟩
  have haccounted := hinserted.accounted
  rw [hafter.size_eq, h.size_eq, List.length_append] at haccounted
  exact ⟨hafter, by omega⟩

/-- A load adds the facts it brings behind those kept and replaces none. -/
theorem IsKept.load {schema : Schema} (hkeys : schema.keys = []) {kept : List Record}
    {store : Store} (h : IsKept kept store) (mode : LoadMode) (workers : Nat) (rows : List Row)
    (hids : ((stampAll false 0 (kept ++ loadedFacts schema mode rows)).map Record.id).Nodup) :
    IsKept (kept ++ loadedFacts schema mode rows)
        ((loadRows schema mode workers rows).run store).2 ∧
      ∀ report, ((loadRows schema mode workers rows).run store).1 = .ok report →
        AddsOnly (loadedFacts schema mode rows) store report
          ((loadRows schema mode workers rows).run store).2 := by
  rcases loadRows_outcome schema mode workers rows h.reachable with
    ⟨found, hrun, hnone⟩ | ⟨report, after, hrun, hloaded, hinserted⟩
  · rw [hrun, hnone, List.append_nil]
    exact ⟨h, fun _ hcontra => by cases hcontra⟩
  · rw [hkeys] at hinserted
    obtain ⟨hafter, hreplaced⟩ := h.insert hids hinserted
    rw [hrun]
    refine ⟨hafter, ?_⟩
    rintro _ ⟨⟩
    refine ⟨hreplaced, hloaded, ?_⟩
    rw [hafter.size_eq, h.size_eq, hloaded, List.length_append]

/-- The steps of a session keep all facts brought since the last clear. -/
theorem isKept_storeAfter {schema : Schema} (hkeys : schema.keys = []) {steps : List LoadStep}
    (hapart : ∀ before, before <+: steps → KeepsApart schema (keptFacts schema before)) :
    IsKept (keptFacts schema steps) (storeAfter schema steps) := by
  induction steps using List.reverseRecOn with
  | nil => exact ⟨.empty, rfl⟩
  | append_singleton steps step ih =>
    have ih := ih fun before hbefore => hapart before (hbefore.trans (List.prefix_append _ _))
    obtain ⟨hlength, hfree⟩ := (hapart _ (List.prefix_refl _)).keyless hkeys
    have hids := nodup_stamped hlength hfree
    rw [keptFacts, List.foldl_append] at hids ⊢
    rw [storeAfter, List.foldl_append]
    cases step with
    | load mode workers rows => exact (ih.load hkeys mode workers rows hids).1
    | clear => exact ⟨.clear ih.reachable, rfl⟩

/-- Whether a store holds each of some facts as a fact of its own: their contents in order, under
different ids. -/
structure HoldsEach (facts : List Record) (store : Store) : Prop where
  contents_eq : store.toList.map Record.contents = facts.map Record.contents
  nodup_ids : (store.toList.map Record.id).Nodup

theorem IsKept.holdsEach {kept : List Record} {store : Store} (h : IsKept kept store) :
    HoldsEach kept store := by
  refine ⟨?_, h.reachable.wellIndexed.nodup_ids⟩
  rw [h.toList_eq, map_contents_stampAll]

/-- Without keys, and unless the hash collides on what it is fed for the facts kept at some moment,
every row mapped since the last clear is stored as a fact of its own at every moment of a session,
and no load replaces a fact. -/
theorem loadRows_keyless {schema : Schema} (hkeys : schema.keys = []) {steps : List LoadStep}
    (hapart : ∀ before, before <+: steps → KeepsApart schema (keptFacts schema before)) :
    (∀ before, before <+: steps →
      HoldsEach (keptFacts schema before) (storeAfter schema before)) ∧
    ∀ before mode workers rows later, steps = before ++ .load mode workers rows :: later →
      ∀ report after,
        (loadRows schema mode workers rows).run (storeAfter schema before) = (.ok report, after) →
          AddsOnly (loadedFacts schema mode rows) (storeAfter schema before) report after := by
  have hkept : ∀ before, before <+: steps →
      IsKept (keptFacts schema before) (storeAfter schema before) := fun before hbefore =>
    isKept_storeAfter hkeys fun earlier hearlier => hapart earlier (hearlier.trans hbefore)
  refine ⟨fun before hbefore => (hkept before hbefore).holdsEach, ?_⟩
  rintro before mode workers rows later rfl report after hrun
  have hnext : before ++ [.load mode workers rows] <+: before ++ .load mode workers rows :: later :=
    ⟨later, by rw [List.append_assoc, List.singleton_append]⟩
  obtain ⟨hlength, hfree⟩ := (hapart _ hnext).keyless hkeys
  have hids := nodup_stamped hlength hfree
  rw [keptFacts, List.foldl_append] at hids
  have hload := ((hkept before (List.prefix_append _ _)).load hkeys mode workers rows hids).2 report
  rw [hrun] at hload
  exact hload rfl

/-! ## A sample -/

/-- What keeps apart, so does the beginning of it. -/
theorem KeepsApart.of_prefix {schema : Schema} {records before : List Record}
    (h : KeepsApart schema records) (hbefore : before <+: records) : KeepsApart schema before := by
  obtain ⟨later, rfl⟩ := hbefore
  constructor
  · intro hkeys
    have hids := h.keyed hkeys
    rw [List.map_append] at hids
    exact hids.of_append_left
  · intro hkeys
    obtain ⟨hlength, hfree⟩ := h.keyless hkeys
    rw [List.length_append] at hlength
    rw [ordinalMessages, List.zipIdx_append, List.map_append] at hfree
    exact ⟨by omega, fun a ha b hb =>
      hfree a (List.mem_append_left _ ha) b (List.mem_append_left _ hb)⟩

namespace Sample

/-- A row without a region cannot be mapped. -/
theorem exists_mapRow_blank (keyed : Bool) {ref amount : String} (href : ref.isEmpty = false) :
    ∃ fault, mapRow (schema keyed) (row ref "" amount) = .error fault := by
  have href' : cellText? (row ref "" amount) "ref" = some ref := by
    simp [cellText?, row, Row.ofList, Row.get?_insert, href]
  have hregion' : cellText? (row ref "" amount) "region" = none := by
    simp [cellText?, row, Row.ofList, Row.get?_insert]
  have hfill : ∃ fault, fillSlots (row ref "" amount) (emptyContents (schema true))
      (schema true).fields = .error fault := by
    simp only [schema, fillSlots, slotValue, href', hregion', Value.ofText]
    exact ⟨_, rfl⟩
  obtain ⟨fault, hfault⟩ := hfill
  exact ⟨fault, congrArg (Except.map (Record.ofContents (schema keyed))) hfault⟩

/-- One row in two batches, a row that is skipped before its second coming, and a clear. -/
def steps : List LoadStep :=
  [.load .strict 1 [row "a" "North" "5"],
   .load .lenient 4 [row "e" "" "2", row "a" "North" "5"], .clear]

theorem mapsTo_single (keyed : Bool) :
    MapsTo (schema keyed) [row "a" "North" "5"] [fact keyed "a" "North" 5] :=
  .cons (mapRow_row keyed rfl rfl rfl rfl) .nil

theorem loadedFacts_skipping :
    loadedFacts (schema false) .lenient [row "e" "" "2", row "a" "North" "5"] =
      [fact false "a" "North" 5] := by
  obtain ⟨fault, hfault⟩ := @exists_mapRow_blank false "e" "2" rfl
  exact (mappedFacts_cons_error hfault _).trans (mapsTo_single false).eq_filterMap.symm

theorem keepsApart_steps : ∀ before, before <+: steps →
    KeepsApart (schema false) (keptFacts (schema false) before) := by
  have hfirst := loadedFacts_of_mapsTo (mapsTo_single false) .strict
  intro before hbefore
  refine keepsApart_keyless.of_prefix ?_
  simp only [steps, List.prefix_cons_iff, List.prefix_nil] at hbefore
  rcases hbefore with rfl | ⟨_, rfl, rfl | ⟨_, rfl, rfl | ⟨_, rfl, rfl⟩⟩⟩
  · exact List.nil_prefix
  · simp [keptFacts, LoadStep.keep, hfirst]
  · simp [keptFacts, LoadStep.keep, hfirst, loadedFacts_skipping]
  · exact List.nil_prefix

end Sample

/-- One row is kept twice, from two batches, and the second batch replaces nothing. -/
theorem loadRows_keyless_sample :
    (Sample.schema false).keys = [] ∧
      (∀ before, before <+: Sample.steps →
        KeepsApart (Sample.schema false) (keptFacts (Sample.schema false) before)) ∧
      HoldsEach [Sample.fact false "a" "North" 5, Sample.fact false "a" "North" 5]
        (storeAfter (Sample.schema false) (Sample.steps.take 2)) ∧
      ∀ report after,
        (loadRows (Sample.schema false) .lenient 4
            [Sample.row "e" "" "2", Sample.row "a" "North" "5"]).run
          (storeAfter (Sample.schema false) (Sample.steps.take 1)) = (.ok report, after) →
        AddsOnly [Sample.fact false "a" "North" 5]
          (storeAfter (Sample.schema false) (Sample.steps.take 1)) report after := by
  have hfirst := loadedFacts_of_mapsTo (Sample.mapsTo_single false) .strict
  have hkept : keptFacts (Sample.schema false) (Sample.steps.take 2) =
      [Sample.fact false "a" "North" 5, Sample.fact false "a" "North" 5] := by
    simp [keptFacts, Sample.steps, LoadStep.keep, hfirst, Sample.loadedFacts_skipping]
  obtain ⟨hholds, hadds⟩ := loadRows_keyless rfl Sample.keepsApart_steps
  refine ⟨rfl, Sample.keepsApart_steps, ?_, ?_⟩
  · rw [← hkept]
    exact hholds _ (List.take_prefix 2 _)
  · rw [← Sample.loadedFacts_skipping]
    exact hadds (Sample.steps.take 1) .lenient 4 _ [.clear] rfl

end FactCube
