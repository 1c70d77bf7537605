import FactCube.Proofs.StoredRecords

/-!
# Ids in collections

A collection is a set of ids under a name. One that is absent has no ids. It comes to be with the
first id that is added, and it stays when its last id is removed, so an empty collection and an
absent one have the same ids and only the first is known. Adding and removing ids leaves the records
and all other collections as they are.

Results:
* `Store.idsIn_addTo`, `Store.idsIn_removeFrom`: one more id, one id less.
* `Store.isExtended_addAll`: ids that are added are united with those that were there, and counted
  if they were not.
-/

namespace FactCube.Store

/-! ## The specification -/

/-- The ids in a collection; one that is absent has none. -/
def idsIn (store : Store) (name : String) : Finset String :=
  ((store.collection? name).getD ∅).toList.toFinset

/-- Whether a store is another one in which some ids were added to a collection. -/
structure IsExtended (store : Store) (name : String) (ids : Finset String) (added : Nat)
    (after : Store) : Prop where
  records_eq : after.records = store.records ∧ after.positions = store.positions
  others_eq : ∀ other, other ≠ name → after.collection? other = store.collection? other
  idsIn_eq : after.idsIn name = store.idsIn name ∪ ids
  /-- The collection comes to be with its first id. -/
  isSome_iff : (after.collection? name).isSome = true ↔
    (store.collection? name).isSome = true ∨ ids.Nonempty
  /-- The ids that are counted are those that were not there. -/
  added_eq : added = (ids \ store.idsIn name).card

/-! ## Sets of ids -/

theorem mem_idsIn {store : Store} {name id : String} :
    id ∈ store.idsIn name ↔ ((store.collection? name).getD ∅).contains id = true := by
  rw [idsIn, List.mem_toFinset, Std.TreeSet.mem_toList, Std.TreeSet.mem_iff_contains]

theorem mem_idsIn_of_some {store : Store} {name : String} {members : Std.TreeSet String}
    (h : store.collection? name = some members) {id : String} :
    id ∈ store.idsIn name ↔ members.contains id = true := by
  rw [mem_idsIn, h, Option.getD_some]

theorem idsIn_of_none {store : Store} {name : String} (h : store.collection? name = none) :
    store.idsIn name = ∅ := by
  refine Finset.eq_empty_of_forall_notMem fun id hid => ?_
  rw [mem_idsIn, h, Option.getD_none, Std.TreeSet.contains_emptyc] at hid
  cases hid

theorem isSome_of_mem_idsIn {store : Store} {name id : String} (h : id ∈ store.idsIn name) :
    (store.collection? name).isSome = true := by
  cases hcollection : store.collection? name with
  | none =>
    rw [idsIn_of_none hcollection] at h
    exact absurd h (Finset.notMem_empty id)
  | some members => rfl

/-- A collection that is the same has the same ids. -/
theorem idsIn_congr {store other : Store} {name : String}
    (h : other.collection? name = store.collection? name) : other.idsIn name = store.idsIn name := by
  rw [idsIn, idsIn, h]

/-! ## One id -/

theorem collection?_addTo (store : Store) (name id : String) :
    (store.addTo name id).2.collection? name =
      some (((store.collection? name).getD ∅).insert id) :=
  Std.TreeMap.getElem?_insert_self

/-- Putting in a collection leaves the others as they are. -/
theorem getElem?_insert_of_ne {store : Store} {name other : String} (h : other ≠ name)
    (members : Std.TreeSet String) :
    (store.collections.insert name members)[other]? = store.collection? other := by
  rw [Std.TreeMap.getElem?_insert, if_neg (by rw [Std.compare_eq_iff_eq]; exact Ne.symm h),
    collection?]

theorem collection?_addTo_of_ne (store : Store) {name other : String} (id : String)
    (h : other ≠ name) : (store.addTo name id).2.collection? other = store.collection? other :=
  getElem?_insert_of_ne h _

/-- An id that is added is in the collection. -/
theorem idsIn_addTo (store : Store) (name id : String) :
    (store.addTo name id).2.idsIn name = insert id (store.idsIn name) := by
  ext other
  rw [Finset.mem_insert, mem_idsIn_of_some (collection?_addTo store name id), mem_idsIn,
    Std.TreeSet.contains_insert, Bool.or_eq_true, beq_iff_eq, Std.compare_eq_iff_eq, eq_comm]

theorem addTo_eq_true_iff {store : Store} {name id : String} :
    (store.addTo name id).1 = true ↔ id ∉ store.idsIn name := by
  rw [mem_idsIn, addTo, Bool.not_eq_true', Bool.not_eq_true]

theorem collection?_removeFrom {store : Store} {name : String} {members : Std.TreeSet String}
    (h : store.collection? name = some members) (id : String) :
    (store.removeFrom name id).2.collection? name = some (members.erase id) := by
  rw [removeFrom, h]
  exact Std.TreeMap.getElem?_insert_self

theorem collection?_removeFrom_of_ne (store : Store) {name other : String} (id : String)
    (h : other ≠ name) :
    (store.removeFrom name id).2.collection? other = store.collection? other := by
  rw [removeFrom]
  cases store.collection? name with
  | none => rfl
  | some members => exact getElem?_insert_of_ne h _

/-- An id that is removed is no longer in the collection. -/
theorem idsIn_removeFrom (store : Store) (name id : String) :
    (store.removeFrom name id).2.idsIn name = (store.idsIn name).erase id := by
  cases hmembers : store.collection? name with
  | none =>
    have hsame : (store.removeFrom name id).2 = store := by rw [removeFrom, hmembers]
    rw [hsame, idsIn_of_none hmembers, Finset.erase_empty]
  | some members =>
    ext other
    rw [mem_idsIn_of_some (collection?_removeFrom hmembers id), Finset.mem_erase,
      mem_idsIn_of_some hmembers, Std.TreeSet.contains_erase, Bool.and_eq_true, bne_iff_ne, ne_eq,
      Std.compare_eq_iff_eq, eq_comm]

/-! ## Some ids -/

theorem foldl_addTo (store : Store) (name : String) (ids : List String) (added : Nat) :
    ids.foldl
        (fun (added, store) id =>
          let (isNew, store) := addTo store name id
          (if isNew then added + 1 else added, store))
        (added, store) =
      (added + (store.addAll name ids).1, (store.addAll name ids).2) := by
  unfold addAll
  induction ids generalizing store added with
  | nil => rfl
  | cons id ids ih =>
    have hnext := ih (store.addTo name id).2
    refine (hnext _).trans (.trans ?_ (congrArg (fun r : Nat × Store => (added + r.1, r.2))
      (hnext (if (store.addTo name id).1 then 0 + 1 else 0))).symm)
    refine Prod.ext ?_ rfl
    show (if (store.addTo name id).1 then added + 1 else added) + _ =
      added + ((if (store.addTo name id).1 then 0 + 1 else 0) + _)
    by_cases hnew : (store.addTo name id).1 = true
    · rw [if_pos hnew, if_pos hnew]
      omega
    · rw [if_neg hnew, if_neg hnew]
      omega

theorem addAll_cons (store : Store) (name id : String) (ids : List String) :
    store.addAll name (id :: ids) =
      ((if (store.addTo name id).1 then 1 else 0) + ((store.addTo name id).2.addAll name ids).1,
        ((store.addTo name id).2.addAll name ids).2) :=
  foldl_addTo (store.addTo name id).2 name ids _

/-- Of some ids and one more, those that are not there. -/
theorem card_insert_sdiff (ids known : Finset String) (id : String) :
    (insert id ids \ known).card =
      (if id ∉ known then 1 else 0) + (ids \ insert id known).card := by
  by_cases hknown : id ∈ known
  · rw [Finset.insert_sdiff_of_mem _ hknown, Finset.insert_eq_of_mem hknown, if_neg (by simpa),
      Nat.zero_add]
  · have hrest : (insert id ids \ known).erase id = ids \ insert id known := by
      ext other
      simp only [Finset.mem_erase, Finset.mem_sdiff, Finset.mem_insert]
      tauto
    rw [if_pos hknown, ← hrest, Nat.add_comm, Finset.card_erase_add_one]
    exact Finset.mem_sdiff.2 ⟨Finset.mem_insert_self _ _, hknown⟩

/-- One more id is added before the others. -/
theorem IsExtended.cons {store after : Store} {name id : String} {ids : Finset String}
    {added : Nat} (h : (store.addTo name id).2.IsExtended name ids added after) :
    store.IsExtended name (insert id ids) ((if (store.addTo name id).1 then 1 else 0) + added)
      after := by
  constructor
  · exact h.records_eq
  · intro other hother
    rw [h.others_eq other hother, collection?_addTo_of_ne store id hother]
  · rw [h.idsIn_eq, idsIn_addTo, Finset.insert_union, Finset.union_insert]
  · rw [h.isSome_iff, collection?_addTo]
    simp
  · rw [h.added_eq, idsIn_addTo, card_insert_sdiff]
    simp only [addTo_eq_true_iff]

/-- Adding ids to a collection extends it by them and counts the new ones. -/
theorem isExtended_addAll (store : Store) (name : String) (ids : List String) :
    store.IsExtended name ids.toFinset (store.addAll name ids).1 (store.addAll name ids).2 := by
  induction ids generalizing store with
  | nil =>
    refine ⟨⟨rfl, rfl⟩, fun _ _ => rfl, ?_, ?_, ?_⟩
    · exact (Finset.union_empty _).symm
    · simp [addAll]
    · simp [addAll]
  | cons id ids ih =>
    rw [addAll_cons, List.toFinset_cons]
    exact (ih _).cons

namespace IsExtended

variable {store after : Store} {name : String} {ids : Finset String} {added : Nat}

theorem toList_eq (h : store.IsExtended name ids added after) : after.toList = store.toList := by
  rw [toList, toList, h.records_eq.1]

/-- No collection loses an id, and only the one that is extended gets any. -/
theorem mem_idsIn_iff (h : store.IsExtended name ids added after) {other id : String} :
    id ∈ after.idsIn other ↔ id ∈ store.idsIn other ∨ other = name ∧ id ∈ ids := by
  by_cases hother : other = name
  · subst hother
    rw [h.idsIn_eq, Finset.mem_union]
    simp
  · rw [idsIn_congr (h.others_eq other hother)]
    simp [hother]

theorem isSome_of_isSome (h : store.IsExtended name ids added after) {other : String}
    (hother : (store.collection? other).isSome = true) :
    (after.collection? other).isSome = true := by
  by_cases hname : other = name
  · subst hname
    exact h.isSome_iff.2 (.inl hother)
  · rwa [h.others_eq other hname]

/-- Adding ids that are there adds nothing. -/
theorem of_subset (h : store.IsExtended name ids added after) (hids : ids ⊆ store.idsIn name) :
    added = 0 ∧ store.IsExtended name ∅ 0 after := by
  refine ⟨?_, h.records_eq, h.others_eq, ?_, ?_, ?_⟩
  · rw [h.added_eq, Finset.sdiff_eq_empty_iff_subset.2 hids, Finset.card_empty]
  · rw [h.idsIn_eq, Finset.union_eq_left.2 hids, Finset.union_empty]
  · rw [h.isSome_iff]
    constructor
    · rintro (hthere | ⟨id, hid⟩)
      · exact .inl hthere
      · exact .inl (isSome_of_mem_idsIn (hids hid))
    · rintro (hthere | hempty)
      · exact .inl hthere
      · exact absurd hempty Finset.not_nonempty_empty
  · rw [Finset.empty_sdiff, Finset.card_empty]

end IsExtended

theorem Reachable.addAll {store : Store} (h : store.Reachable) (name : String)
    (ids : List String) : (store.addAll name ids).2.Reachable := by
  induction ids generalizing store with
  | nil => exact h
  | cons id ids ih =>
    rw [addAll_cons]
    exact ih (h.addTo name id)

end FactCube.Store
