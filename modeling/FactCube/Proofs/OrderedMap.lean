import FactCube.Proofs.StoredRecords

/-!
# A store as an ordered map

Seen from outside, a store is a map from ids to records that remembers the order in which its ids
first came. Which map it is can be said without arrays and indexes, by the records that were put in
since it was last cleared: an id has the last of them that bears it, and the ids come in the order
of the first ones. The array and the index of the store are two separate data, and every change has
to keep them in step.

Results:
* `Store.IsMapOf.apply`: a change of the store is the same change of the map.
* `Store.afterAll_isMapOf`: after any changes the store is the map of what was put in.
-/

namespace FactCube

/-! ## Putting a record into a list -/

theorem map_id_putRecord (record : Record) (records : List Record) :
    (putRecord record records).map Record.id =
      if record.id ∈ records.map Record.id then records.map Record.id
      else records.map Record.id ++ [record.id] :=
  map_putRecord fun _ _ => Iff.rfl

/-- A record that is put in is found under its id, and all others as before. -/
theorem find?_putRecord (record : Record) (records : List Record) (id : String) :
    (putRecord record records).find? (fun other => other.id = id) =
      if record.id = id then some record else records.find? fun other => other.id = id := by
  induction records with
  | nil => rw [putRecord, List.find?_singleton]; simp
  | cons other rest ih =>
    rw [putRecord]
    by_cases hsame : other.id = record.id
    · rw [if_pos hsame]
      by_cases hid : record.id = id
      · rw [if_pos hid, List.find?_cons_of_pos (by simpa using hid)]
      · rw [if_neg hid, List.find?_cons_of_neg (by simpa using hid),
          List.find?_cons_of_neg (by simpa [hsame] using hid)]
    · rw [if_neg hsame]
      by_cases hother : other.id = id
      · have hid : record.id ≠ id := fun heq => hsame (hother.trans heq.symm)
        rw [if_neg hid, List.find?_cons_of_pos (by simpa using hother),
          List.find?_cons_of_pos (by simpa using hother)]
      · rw [List.find?_cons_of_neg (by simpa using hother), ih,
          List.find?_cons_of_neg (by simpa using hother)]

/-- Putting in a record whose id is there changes the record of this id and no other. -/
theorem putRecord_eq_map {record : Record} {records : List Record}
    (hnodup : (records.map Record.id).Nodup) (h : record.id ∈ records.map Record.id) :
    putRecord record records =
      records.map fun other => if other.id = record.id then record else other := by
  induction records with
  | nil => cases h
  | cons other rest ih =>
    rw [List.map_cons, List.nodup_cons] at hnodup
    rw [putRecord, List.map_cons]
    by_cases hsame : other.id = record.id
    · have hrest : rest.map (fun o => if o.id = record.id then record else o) = rest := by
        conv_rhs => rw [← List.map_id rest]
        refine List.map_congr_left fun o ho => if_neg fun heq => hnodup.1 ?_
        rw [hsame, ← heq]
        exact List.mem_map_of_mem ho
      rw [if_pos hsame, if_pos hsame, hrest]
    · rw [List.map_cons, List.mem_cons] at h
      rw [if_neg hsame, if_neg hsame, ih hnodup.2 (h.resolve_left (Ne.symm hsame))]

namespace Store

/-! ## Changes -/

/-- A change of a store. -/
inductive Change
  | upsert (record : Record)
  | extend (records : List Record)
  | clear
  | addTo (name id : String)
  | removeFrom (name id : String)

/-- The store after a change. -/
def apply (store : Store) : Change → Store
  | .upsert record => (store.upsert record).2
  | .extend records => store.extend records
  | .clear => store.clear
  | .addTo name id => (store.addTo name id).2
  | .removeFrom name id => (store.removeFrom name id).2

/-- The store that some changes, one after the other, make of the empty one. -/
def afterAll (changes : List Change) : Store := changes.foldl apply empty

/-- Whether a change is one of records. -/
def Change.isOfRecords : Change → Bool
  | .upsert _ | .extend _ | .clear => true
  | .addTo _ _ | .removeFrom _ _ => false

/-- Whether a change is one of collections. -/
def Change.isOfCollections : Change → Bool
  | .upsert _ | .extend _ => false
  | .clear | .addTo _ _ | .removeFrom _ _ => true

/-! ## The map -/

/-- The records put in since the last clear, after one more change. -/
def Change.note (noted : List Record) : Change → List Record
  | .upsert record => noted ++ [record]
  | .extend records => noted ++ records
  | .clear => []
  | .addTo _ _ | .removeFrom _ _ => noted

/-- The records put in by some changes since the last clear, in order. -/
def history (changes : List Change) : List Record := changes.foldl Change.note []

/-- The last of some records that has an id. -/
def latest? (noted : List Record) (id : String) : Option Record :=
  noted.reverse.find? fun record => record.id = id

/-- The ids of some records in the order in which they first appear. -/
def firstIds (noted : List Record) : List String := (noted.map Record.id).eraseDups

/-- Whether a store is the map from ids to records that comes of putting in some records. -/
structure IsMapOf (store : Store) (noted : List Record) : Prop where
  /-- The stored ids differ, and the index has the position of each and of nothing else. -/
  nodup_ids : (store.toList.map Record.id).Nodup
  wellIndexed : store.WellIndexed
  /-- An id has the last record that was put in under it. -/
  get?_eq : ∀ id, store.get? id = latest? noted id
  /-- The records are those of the ids, in the order in which the ids first came. -/
  toList_eq : store.toList.map some = (firstIds noted).map (latest? noted)
  size_eq : store.size = (noted.map Record.id).toFinset.card

/-- What one upsert does: it says whether the id was there, and changes its record only. -/
structure IsPut (store : Store) (record : Record) (replaced : Bool) (after : Store) : Prop where
  replaced_iff : replaced = true ↔ ∃ old, store.get? record.id = some old
  get?_self : after.get? record.id = some record
  get?_other : ∀ id, id ≠ record.id → after.get? id = store.get? id
  toList_eq : after.toList =
    if replaced then store.toList.map fun other => if other.id = record.id then record else other
    else store.toList ++ [record]

/-- What a change leaves alone: the collections if it is one of records only, and the records with
their index if it is one of collections only. -/
structure IsFramed (store : Store) (change : Change) : Prop where
  collections_eq : change.isOfCollections = false →
    (store.apply change).collections = store.collections
  records_eq : change.isOfRecords = false →
    (store.apply change).records = store.records ∧
      (store.apply change).positions = store.positions

/-! ## Steps -/

theorem latest?_concat (noted : List Record) (record : Record) (id : String) :
    latest? (noted ++ [record]) id = if record.id = id then some record else latest? noted id := by
  rw [latest?, List.reverse_append, List.reverse_singleton, List.singleton_append]
  by_cases hid : record.id = id
  · rw [if_pos hid, List.find?_cons_of_pos (by simpa using hid)]
  · rw [if_neg hid, List.find?_cons_of_neg (by simpa using hid), latest?]

theorem firstIds_concat (noted : List Record) (record : Record) :
    firstIds (noted ++ [record]) =
      if record.id ∈ firstIds noted then firstIds noted else firstIds noted ++ [record.id] := by
  rw [firstIds, firstIds, List.map_append, List.map_singleton, List.eraseDups_append,
    List.removeAll, List.filter_singleton]
  by_cases h : record.id ∈ noted.map Record.id
  · rw [if_pos (List.mem_eraseDups.2 h), List.elem_iff.2 h]
    exact List.append_nil _
  · rw [if_neg (mt List.mem_eraseDups.1 h), Bool.eq_false_iff.2 (mt List.elem_iff.1 h)]
    rfl

/-- The stored records are those that the index finds for the stored ids. -/
theorem WellIndexed.map_some_toList {store : Store} (h : store.WellIndexed) :
    store.toList.map some = (store.toList.map Record.id).map store.get? := by
  rw [List.map_map]
  refine List.map_congr_left fun record hrecord => ?_
  obtain ⟨position, hposition⟩ := List.mem_iff_getElem?.1 hrecord
  rw [Function.comp_apply, h.get?_eq_find?, find?_of_getElem? h.nodup_ids hposition]

/-- A well indexed store is the map of some records if it has their ids in order and finds the last
one for each. -/
theorem IsMapOf.of_ids {store : Store} {noted : List Record} (h : store.WellIndexed)
    (hget : ∀ id, store.get? id = latest? noted id)
    (hids : store.toList.map Record.id = firstIds noted) : store.IsMapOf noted := by
  refine ⟨h.nodup_ids, h, hget, ?_, ?_⟩
  · rw [h.map_some_toList, hids]
    exact List.map_congr_left fun id _ => hget id
  · have hset : (noted.map Record.id).toFinset = (firstIds noted).toFinset := by
      ext id
      rw [List.mem_toFinset, List.mem_toFinset, firstIds, List.mem_eraseDups]
    rw [hset, ← hids, List.toFinset_card_of_nodup h.nodup_ids, List.length_map, length_toList]

/-- A change that leaves the records and the index as they are leaves the map as it is. -/
theorem IsMapOf.of_eq {store other : Store} {noted : List Record} (h : store.IsMapOf noted)
    (heq : other.records = store.records ∧ other.positions = store.positions) :
    other.IsMapOf noted := by
  have hlist : other.toList = store.toList := by rw [toList, toList, heq.1]
  have hget : ∀ id, other.get? id = store.get? id := fun id => by rw [get?, get?, heq.1, heq.2]
  refine ⟨hlist ▸ h.nodup_ids, h.wellIndexed.of_eq heq, fun id => (hget id).trans (h.get?_eq id),
    hlist ▸ h.toList_eq, ?_⟩
  rw [size, heq.1]
  exact h.size_eq

/-- The ids of a store that is a map are those put in, in the order of their first appearance. -/
theorem IsMapOf.ids_eq {store : Store} {noted : List Record} (h : store.IsMapOf noted) :
    store.toList.map Record.id = firstIds noted := by
  have hbearer : ∀ id ∈ firstIds noted, (latest? noted id).map Record.id = some id := by
    intro id hid
    rw [firstIds, List.mem_eraseDups, List.mem_map] at hid
    obtain ⟨record, hrecord, hid⟩ := hid
    obtain ⟨last, hlast⟩ : ∃ last, latest? noted id = some last := by
      rw [← Option.isSome_iff_exists, latest?, List.find?_isSome]
      exact ⟨record, List.mem_reverse.2 hrecord, decide_eq_true hid⟩
    have hlastid : last.id = id := by simpa using List.find?_some hlast
    rw [hlast, Option.map_some, hlastid]
  have hsome : (store.toList.map Record.id).map some = (firstIds noted).map some := by
    have heq := congrArg (List.map (Option.map Record.id)) h.toList_eq
    rw [List.map_map, List.map_map] at heq
    rw [List.map_map]
    exact heq.trans (List.map_congr_left hbearer)
  exact (List.map_injective_iff.2 (Option.some_injective _)) hsome

/-- What one upsert does to a well indexed store. -/
theorem WellIndexed.isPut {store : Store} (h : store.WellIndexed) (record : Record) :
    IsPut store record (store.upsert record).1 (store.upsert record).2 := by
  have hreplaced := h.replaced_upsert record
  have hlist := h.toList_upsert record
  have hget : ∀ id, (store.upsert record).2.get? id =
      if record.id = id then some record else store.get? id := by
    intro id
    rw [(h.upsert record).get?_eq_find?, hlist, find?_putRecord, ← h.get?_eq_find?]
  refine ⟨?_, ?_, fun id hid => ?_, ?_⟩
  · rw [hreplaced, ← Option.isSome_iff_exists, h.get?_eq_find?, List.find?_isSome, List.mem_map]
    simp only [decide_eq_true_eq]
  · rw [hget, if_pos rfl]
  · rw [hget, if_neg (Ne.symm hid)]
  · by_cases hmem : record.id ∈ store.toList.map Record.id
    · rw [hlist, if_pos (hreplaced.2 hmem), putRecord_eq_map h.nodup_ids hmem]
    · rw [hlist, if_neg (mt hreplaced.1 hmem), putRecord_of_notMem hmem]

theorem IsMapOf.upsert {store : Store} {noted : List Record} (h : store.IsMapOf noted)
    (record : Record) : (store.upsert record).2.IsMapOf (noted ++ [record]) := by
  refine .of_ids (h.wellIndexed.upsert record) (fun id => ?_) ?_
  · rw [(h.wellIndexed.upsert record).get?_eq_find?, h.wellIndexed.toList_upsert, find?_putRecord,
      ← h.wellIndexed.get?_eq_find?, h.get?_eq, latest?_concat]
  · rw [h.wellIndexed.toList_upsert, map_id_putRecord, firstIds_concat, h.ids_eq]

theorem IsMapOf.extend {store : Store} {noted : List Record} (h : store.IsMapOf noted)
    (records : List Record) : (store.extend records).IsMapOf (noted ++ records) := by
  induction records generalizing store noted with
  | nil =>
    rw [List.append_nil]
    exact h
  | cons record records ih =>
    rw [List.append_cons]
    exact ih (h.upsert record)

theorem isMapOf_empty : empty.IsMapOf [] :=
  .of_ids wellIndexed_empty wellIndexed_empty.get?_eq_find? rfl

/-- A change of the store is the same change of the map. -/
theorem IsMapOf.apply {store : Store} {noted : List Record} (h : store.IsMapOf noted)
    (change : Change) : (store.apply change).IsMapOf (change.note noted) := by
  cases change with
  | upsert record => exact h.upsert record
  | extend records => exact h.extend records
  | clear => exact isMapOf_empty
  | addTo name id => exact h.of_eq (addTo_records _ name id)
  | removeFrom name id => exact h.of_eq (removeFrom_records _ name id)

theorem isFramed_apply (store : Store) (change : Change) : IsFramed store change := by
  constructor
  · intro h
    cases change with
    | upsert record => exact collections_upsert store record
    | extend records => exact collections_extend store records
    | clear | addTo | removeFrom => cases h
  · intro h
    cases change with
    | upsert | extend | clear => cases h
    | addTo name id => exact addTo_records store name id
    | removeFrom name id => exact removeFrom_records store name id

/-! ## Runs -/

theorem isMapOf_afterAll (changes : List Change) :
    (afterAll changes).IsMapOf (history changes) := by
  induction changes using List.reverseRecOn with
  | nil => exact isMapOf_empty
  | append_singleton changes change ih =>
    rw [afterAll, history, List.foldl_append, List.foldl_append]
    exact ih.apply change

/-- After any changes of the empty store it is the map of the records put in since the last clear.
From there one more upsert changes one record, and one more change leaves alone what it is not
about. -/
theorem afterAll_isMapOf (changes : List Change) :
    (afterAll changes).IsMapOf (history changes) ∧
      (∀ record, IsPut (afterAll changes) record ((afterAll changes).upsert record).1
        ((afterAll changes).upsert record).2) ∧
      ∀ change, IsFramed (afterAll changes) change :=
  ⟨isMapOf_afterAll changes, (isMapOf_afterAll changes).wellIndexed.isPut, isFramed_apply _⟩

end Store

end FactCube
