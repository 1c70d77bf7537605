import FactCube.Store.Basic
import Mathlib

/-!
# Records of a store

The index of a reachable store has the position of every record under its id and nothing else. Seen
as a list of records with different ids, the store then changes by upserts only: a record takes the
place of the one with its id, or comes last.

Results:
* `Store.Reachable.wellIndexed`: the index of a reachable store is in step with its records.
* `Store.WellIndexed.toList_upsert`: an upsert changes the list of records as `putRecord` does.
* `Store.WellIndexed.get?_eq_find?`: the index finds the record with an id.
-/

namespace FactCube

/-! ## Lists of records -/

/-- Puts a record into a list: in place of the one with its id, else at the end. -/
def putRecord (record : Record) : List Record → List Record
  | [] => [record]
  | other :: rest =>
    if other.id = record.id then record :: rest else other :: putRecord record rest

theorem putRecord_of_notMem {record : Record} {records : List Record}
    (h : record.id ∉ records.map Record.id) : putRecord record records = records ++ [record] := by
  induction records with
  | nil => rfl
  | cons other rest ih =>
    rw [List.map_cons, List.mem_cons, not_or] at h
    rw [putRecord, if_neg (Ne.symm h.1), ih h.2, List.cons_append]

theorem putRecord_of_getElem? {record : Record} {records : List Record} {position : Nat}
    (hnodup : (records.map Record.id).Nodup)
    (h : (records.map Record.id)[position]? = some record.id) :
    putRecord record records = records.set position record := by
  induction records generalizing position with
  | nil => simp at h
  | cons other rest ih =>
    rw [List.map_cons, List.nodup_cons] at hnodup
    cases position with
    | zero =>
      rw [List.map_cons, List.getElem?_cons_zero, Option.some.injEq] at h
      rw [putRecord, if_pos h, List.set_cons_zero]
    | succ position =>
      rw [List.map_cons, List.getElem?_cons_succ] at h
      have hne : other.id ≠ record.id := by
        intro heq
        rw [heq] at hnodup
        exact hnodup.1 (List.mem_of_getElem? h)
      rw [putRecord, if_neg hne, ih hnodup.2 h, List.set_cons_succ]

theorem mem_putRecord {record other : Record} {records : List Record}
    (h : other ∈ putRecord record records) : other = record ∨ other ∈ records := by
  induction records with
  | nil => exact .inl (List.mem_singleton.1 h)
  | cons first rest ih =>
    rw [putRecord] at h
    split at h
    · exact (List.mem_cons.1 h).imp_right (List.mem_cons_of_mem _)
    · rcases List.mem_cons.1 h with rfl | h
      · exact .inr List.mem_cons_self
      · exact (ih h).imp_right (List.mem_cons_of_mem _)

/-- Where ids stand for keys, a record replaces the one with its key or brings a new key. -/
theorem map_putRecord {κ : Type} [BEq κ] [LawfulBEq κ] {key : Record → κ} {record : Record}
    {stored : List Record}
    (h : ∀ other ∈ stored, other.id = record.id ↔ key other = key record) :
    (putRecord record stored).map key =
      if key record ∈ stored.map key then stored.map key else stored.map key ++ [key record] := by
  induction stored with
  | nil => rfl
  | cons other rest ih =>
    rw [List.forall_mem_cons] at h
    rw [putRecord]
    by_cases hid : other.id = record.id
    · have hkey := h.1.1 hid
      rw [if_pos hid, List.map_cons, List.map_cons, hkey, if_pos List.mem_cons_self]
    · have hkey : ¬key record = key other := fun heq => hid (h.1.2 heq.symm)
      rw [if_neg hid, List.map_cons, List.map_cons, ih h.2]
      simp only [List.mem_cons, hkey, false_or]
      split
      · rfl
      · rfl

theorem find?_of_getElem? {record : Record} {records : List Record} {position : Nat}
    (hnodup : (records.map Record.id).Nodup) (h : records[position]? = some record) :
    records.find? (fun other => other.id = record.id) = some record := by
  induction records generalizing position with
  | nil => simp at h
  | cons other rest ih =>
    rw [List.map_cons, List.nodup_cons] at hnodup
    cases position with
    | zero =>
      rw [List.getElem?_cons_zero, Option.some.injEq] at h
      subst h
      exact List.find?_cons_of_pos (decide_eq_true rfl)
    | succ position =>
      rw [List.getElem?_cons_succ] at h
      have hne : other.id ≠ record.id := by
        intro heq
        rw [heq] at hnodup
        exact hnodup.1 (List.mem_map_of_mem (List.mem_of_getElem? h))
      rw [List.find?_cons_of_neg (by simpa using hne), ih hnodup.2 h]

namespace Store

/-! ## Index -/

/-- Whether the index has the position of every record, and no other. -/
def WellIndexed (store : Store) : Prop :=
  ∀ (id : String) (position : Nat),
    store.positions[id]? = some position ↔ (store.toList.map Record.id)[position]? = some id

theorem WellIndexed.nodup_ids {store : Store} (h : store.WellIndexed) :
    (store.toList.map Record.id).Nodup := by
  rw [List.nodup_iff_getElem?_ne_getElem?]
  intro i j hij hj heq
  have hfound : (store.toList.map Record.id)[j]? = some (store.toList.map Record.id)[j] :=
    List.getElem?_eq_getElem hj
  have hi := (h _ i).2 (heq.trans hfound)
  rw [(h _ j).2 hfound, Option.some.injEq] at hi
  omega

theorem WellIndexed.notMem_of_none {store : Store} (h : store.WellIndexed) {id : String}
    (hnone : store.positions[id]? = none) : id ∉ store.toList.map Record.id := by
  intro hmem
  obtain ⟨position, hposition⟩ := List.mem_iff_getElem?.1 hmem
  rw [(h id position).2 hposition] at hnone
  cases hnone

theorem length_toList (store : Store) : store.toList.length = store.size :=
  Array.length_toList

/-- An upsert changes the list of records as `putRecord` does. -/
theorem WellIndexed.toList_upsert {store : Store} (h : store.WellIndexed) (record : Record) :
    (store.upsert record).2.toList = putRecord record store.toList := by
  rw [upsert]
  cases hposition : store.positions[record.id]? with
  | none =>
    rw [putRecord_of_notMem (h.notMem_of_none hposition)]
    exact Array.toList_push
  | some position =>
    rw [putRecord_of_getElem? h.nodup_ids ((h _ _).1 hposition)]
    exact Array.toList_setIfInBounds

/-- An upsert replaces a record iff its id is there. -/
theorem WellIndexed.replaced_upsert {store : Store} (h : store.WellIndexed) (record : Record) :
    (store.upsert record).1 = true ↔ record.id ∈ store.toList.map Record.id := by
  rw [upsert]
  cases hposition : store.positions[record.id]? with
  | none => simpa using h.notMem_of_none hposition
  | some position => simpa using List.mem_of_getElem? ((h _ _).1 hposition)

theorem collections_upsert (store : Store) (record : Record) :
    (store.upsert record).2.collections = store.collections := by
  rw [upsert]
  split <;> rfl

theorem collections_extend (store : Store) (records : List Record) :
    (store.extend records).collections = store.collections := by
  induction records generalizing store with
  | nil => rfl
  | cons record records ih => exact (ih _).trans (collections_upsert store record)

theorem WellIndexed.upsert {store : Store} (h : store.WellIndexed) (record : Record) :
    (store.upsert record).2.WellIndexed := by
  intro id position
  rw [h.toList_upsert]
  cases hfound : store.positions[record.id]? with
  | none =>
    have hfresh := h.notMem_of_none hfound
    have hpositions : (store.upsert record).2.positions =
        store.positions.insert record.id store.size := by
      rw [Store.upsert, hfound]
      rfl
    have hlength : (store.toList.map Record.id).length = store.size := by
      rw [List.length_map, length_toList]
    rw [hpositions, putRecord_of_notMem hfresh, Std.HashMap.getElem?_insert, List.map_append,
      List.map_singleton, List.getElem?_append, hlength]
    by_cases hid : record.id = id
    · subst hid
      rw [if_pos (beq_self_eq_true _), Option.some.injEq]
      split
      · rename_i hlt
        constructor
        · omega
        · exact fun hmem => absurd (List.mem_of_getElem? hmem) hfresh
      · rw [List.getElem?_singleton]
        split
        · simp only [iff_true]
          omega
        · simp only [reduceCtorEq, iff_false]
          omega
    · rw [if_neg (by simpa using hid), h id position]
      split
      · rfl
      · rename_i hge
        rw [List.getElem?_eq_none (by omega), List.getElem?_singleton]
        split <;> simp [hid]
  | some found =>
    have hpositions : (store.upsert record).2.positions = store.positions := by
      rw [Store.upsert, hfound]
    have hid := (h _ _).1 hfound
    have hids : (store.toList.map Record.id).set found record.id = store.toList.map Record.id := by
      obtain ⟨hlt, heq⟩ := List.getElem?_eq_some_iff.1 hid
      rw [← heq, List.set_getElem_self]
    rw [hpositions, h id position, putRecord_of_getElem? h.nodup_ids hid, List.map_set, hids]

/-- The index finds the record with an id. -/
theorem WellIndexed.get?_eq_find? {store : Store} (h : store.WellIndexed) (id : String) :
    store.get? id = store.toList.find? fun record => record.id = id := by
  rw [get?]
  cases hposition : store.positions[id]? with
  | none =>
    rw [eq_comm, List.find?_eq_none]
    intro record hmem
    have hfresh := h.notMem_of_none hposition
    simp only [decide_eq_true_eq]
    rintro rfl
    exact hfresh (List.mem_map_of_mem hmem)
  | some position =>
    have hid := (h id position).1 hposition
    rw [List.getElem?_map, Option.map_eq_some_iff] at hid
    obtain ⟨record, hrecord, rfl⟩ := hid
    rw [find?_of_getElem? h.nodup_ids hrecord]
    exact Array.getElem?_toList.symm.trans hrecord

/-! ## Reachable stores -/

/-- The stores that come from the empty one by upserts and changes of collections. -/
inductive Reachable : Store → Prop
  | empty : Reachable empty
  | upsert {store : Store} (record : Record) :
    Reachable store → Reachable (store.upsert record).2
  | clear {store : Store} : Reachable store → Reachable store.clear
  | addTo {store : Store} (name id : String) :
    Reachable store → Reachable (store.addTo name id).2
  | removeFrom {store : Store} (name id : String) :
    Reachable store → Reachable (store.removeFrom name id).2

theorem wellIndexed_empty : empty.WellIndexed := by
  intro id position
  rw [empty, Std.HashMap.getElem?_empty]
  simp [toList]

theorem addTo_records (store : Store) (name id : String) :
    (store.addTo name id).2.records = store.records ∧
      (store.addTo name id).2.positions = store.positions := ⟨rfl, rfl⟩

theorem removeFrom_records (store : Store) (name id : String) :
    (store.removeFrom name id).2.records = store.records ∧
      (store.removeFrom name id).2.positions = store.positions := by
  rw [removeFrom]
  split <;> exact ⟨rfl, rfl⟩

theorem WellIndexed.of_eq {store other : Store} (h : store.WellIndexed)
    (heq : other.records = store.records ∧ other.positions = store.positions) :
    other.WellIndexed := by
  intro id position
  rw [heq.2, toList, heq.1]
  exact h id position

/-- The index of a reachable store is in step with its records. -/
theorem Reachable.wellIndexed {store : Store} (h : store.Reachable) : store.WellIndexed := by
  induction h with
  | empty => exact wellIndexed_empty
  | upsert record _ ih => exact ih.upsert record
  | clear _ _ => exact wellIndexed_empty
  | addTo name id _ ih => exact ih.of_eq (addTo_records _ name id)
  | removeFrom name id _ ih => exact ih.of_eq (removeFrom_records _ name id)

theorem Reachable.extend {store : Store} (h : store.Reachable) (records : List Record) :
    (store.extend records).Reachable := by
  induction records generalizing store with
  | nil => exact h
  | cons record records ih => exact ih (h.upsert record)

/-- What holds of all stored and of all new records holds of all records afterwards. -/
theorem Reachable.forall_mem_extend {P : Record → Prop} {store : Store} (h : store.Reachable)
    (hstore : ∀ record ∈ store.toList, P record) {records : List Record}
    (hrecords : ∀ record ∈ records, P record) :
    ∀ record ∈ (store.extend records).toList, P record := by
  induction records generalizing store with
  | nil => exact hstore
  | cons record records ih =>
    rw [List.forall_mem_cons] at hrecords
    refine ih (h.upsert record) (fun other hother => ?_) hrecords.2
    rw [h.wellIndexed.toList_upsert] at hother
    rcases mem_putRecord hother with rfl | hother
    · exact hrecords.1
    · exact hstore other hother

/-- Records with ids of their own come behind those of the store. -/
theorem Reachable.toList_extend {store : Store} (h : store.Reachable) {records : List Record}
    (hids : ((store.toList ++ records).map Record.id).Nodup) :
    (store.extend records).toList = store.toList ++ records := by
  induction records generalizing store with
  | nil => exact (List.append_nil _).symm
  | cons record records ih =>
    have hfresh : record.id ∉ store.toList.map Record.id := by
      rw [List.map_append, List.map_cons] at hids
      exact fun hmem => (List.nodup_append.1 hids).2.2 _ hmem _ List.mem_cons_self rfl
    have hupsert : (store.upsert record).2.toList = store.toList ++ [record] :=
      (h.wellIndexed.toList_upsert record).trans (putRecord_of_notMem hfresh)
    rw [List.append_cons, ← hupsert] at hids ⊢
    exact ih (h.upsert record) hids

end Store

end FactCube
