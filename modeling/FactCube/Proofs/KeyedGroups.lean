import FactCube.Proofs.Tallies
import FactCube.Proofs.ValueOrder

/-!
# Groups by key

Groups are found by their keys. After some facts were added, the tally at a key is that of the facts
of this key, in order; after groupings were merged, it is the merge of their tallies at this key.
Where the values in all keys are regular, a key that is found is the key that is stored, so that
groupings with the same tallies at all keys are the same lists.

Results:
* `Groups.getElem?_ofList`: the tally at a key after some facts.
* `Groups.getElem?_ofPieces`: the tally at a key after some pieces.
* `Groups.mem_toList_iff`: the groups of a regular grouping are its regular keys with a tally.
* `Groups.map_toList_eq`: regular groupings that agree at all keys agree as lists.
-/

namespace FactCube

variable {σ : Type} {arith : Arithmetic σ}

/-! ## Optional tallies -/

namespace Tally

/-- The tally of some facts, if there are any. -/
def ofList? (arith : Arithmetic σ) (facts : List (List σ)) : Option (Tally σ) :=
  if facts.isEmpty then none else some (ofList arith facts)

theorem getD_ofList? (facts : List (List σ)) :
    (ofList? arith facts).getD empty = ofList arith facts := by
  cases facts <;> rfl

theorem ofList?_concat (facts : List (List σ)) (amounts : List σ) :
    ofList? arith (facts ++ [amounts]) = some ((ofList arith facts).add arith amounts) := by
  rw [← ofList_concat, ofList?]
  simp

/-- Merges a tally, if there is one, to another. -/
def mergeOption (arith : Arithmetic σ) (t? u? : Option (Tally σ)) : Option (Tally σ) :=
  match u? with
  | none => t?
  | some u => some ((t?.getD empty).merge arith u)

/-- The tally of some tallies, merged in order, if there are any. -/
def mergeAll? (arith : Arithmetic σ) (tallies : List (Tally σ)) : Option (Tally σ) :=
  if tallies.isEmpty then none else some (mergeAll arith tallies)

theorem getD_mergeAll? (tallies : List (Tally σ)) :
    (mergeAll? arith tallies).getD empty = mergeAll arith tallies := by
  cases tallies <;> rfl

end Tally

namespace Groups

/-! ## Facts of a key -/

/-- The amounts of the facts of a key, in order. -/
def amountsAt (key : List Value) (facts : List (Contribution σ)) : List (List σ) :=
  (facts.filter fun c => compareKeys c.key key == .eq).map Contribution.amounts

theorem amountsAt_append (key : List Value) (as bs : List (Contribution σ)) :
    amountsAt key (as ++ bs) = amountsAt key as ++ amountsAt key bs := by
  rw [amountsAt, List.filter_append, List.map_append, amountsAt, amountsAt]

theorem amountsAt_flatten (key : List Value) (pieces : List (List (Contribution σ))) :
    amountsAt key pieces.flatten = (pieces.map (amountsAt key)).flatten := by
  induction pieces with
  | nil => rfl
  | cons piece pieces ih =>
    rw [List.flatten_cons, amountsAt_append, ih, List.map_cons, List.flatten_cons]

theorem amountsAt_perm (key : List Value) {as bs : List (Contribution σ)} (h : as.Perm bs) :
    (amountsAt key as).Perm (amountsAt key bs) :=
  (h.filter _).map _

/-! ## Tallies at a key -/

theorem getElem?_add (groups : Groups σ) (c : Contribution σ) (key : List Value) :
    (groups.add arith c)[key]? =
      if compareKeys c.key key = .eq then
        some ((groups[key]?.getD .empty).add arith c.amounts)
      else groups[key]? := by
  rw [add, Std.TreeMap.getElem?_alter]
  split
  · rename_i h
    rw [Std.TreeMap.getElem?_congr h]
  · rfl

theorem ofList_concat (facts : List (Contribution σ)) (c : Contribution σ) :
    ofList arith (facts ++ [c]) = (ofList arith facts).add arith c := by
  rw [ofList, List.foldl_append, List.foldl_cons, List.foldl_nil, ofList]

/-- The tally at a key is that of the facts of this key, in order. -/
theorem getElem?_ofList (facts : List (Contribution σ)) (key : List Value) :
    (ofList arith facts)[key]? = Tally.ofList? arith (amountsAt key facts) := by
  induction facts using List.reverseRecOn with
  | nil => exact Std.TreeMap.getElem?_emptyc
  | append_singleton facts c ih =>
    rw [ofList_concat, getElem?_add, ih, amountsAt_append]
    by_cases h : compareKeys c.key key = .eq
    · rw [if_pos h, Tally.getD_ofList?, show amountsAt key [c] = [c.amounts] by simp [amountsAt, h],
        Tally.ofList?_concat]
    · rw [if_neg h, show amountsAt key [c] = [] by simp [amountsAt, h], List.append_nil]

/-! ## Merged groupings -/

/-- The tally at a key in a list of groups. -/
def lookup (key : List Value) (groups : List (List Value × Tally σ)) : Option (Tally σ) :=
  (groups.find? fun g => compareKeys g.1 key == .eq).map Prod.snd

theorem lookup_toList (groups : Groups σ) (key : List Value) :
    lookup key groups.toList = groups[key]? := by
  rw [lookup]
  cases h : groups.toList.find? fun g => compareKeys g.1 key == .eq with
  | some g =>
    obtain ⟨-, htally⟩ :=
      Std.TreeMap.find?_toList_eq_some_iff_getKey?_eq_some_and_getElem?_eq_some.1 h
    rw [htally, Option.map_some]
  | none =>
    rw [Std.TreeMap.find?_toList_eq_none_iff_not_mem] at h
    rw [Option.map_none, eq_comm, Option.eq_none_iff_forall_ne_some]
    intro t ht
    exact h (Std.TreeMap.mem_iff_isSome_getElem?.2 (by rw [ht]; rfl))

/-- A key takes part in a merge at most once, since the merged groups have different keys. -/
theorem getElem?_foldl_alter (other : List (List Value × Tally σ)) (groups : Groups σ)
    (key : List Value) (h : other.Pairwise fun a b => ¬compareKeys a.1 b.1 = .eq) :
    (other.foldl (fun groups (g : List Value × Tally σ) =>
      groups.alter g.1 fun tally? => some ((tally?.getD .empty).merge arith g.2)) groups)[key]? =
      Tally.mergeOption arith groups[key]? (lookup key other) := by
  induction other generalizing groups with
  | nil => rfl
  | cons g other ih =>
    obtain ⟨hg, hother⟩ := List.pairwise_cons.1 h
    rw [List.foldl_cons, ih _ hother, Std.TreeMap.getElem?_alter]
    by_cases hkey : compareKeys g.1 key = .eq
    · have hlookup : lookup key other = none := by
        rw [lookup, Option.map_eq_none_iff, List.find?_eq_none]
        intro a ha heq
        rw [beq_iff_eq] at heq
        exact hg a ha (Std.TransCmp.eq_trans hkey (Std.OrientedCmp.eq_symm heq))
      rw [if_pos hkey, hlookup, Std.TreeMap.getElem?_congr hkey, lookup,
        List.find?_cons_of_pos (by simpa using hkey)]
      rfl
    · rw [if_neg hkey, lookup, lookup, List.find?_cons_of_neg (by simpa using hkey)]

theorem getElem?_merge (groups other : Groups σ) (key : List Value) :
    (groups.merge arith other)[key]? = Tally.mergeOption arith groups[key]? other[key]? := by
  rw [merge, Std.TreeMap.foldl_eq_foldl_toList, getElem?_foldl_alter _ _ _
    Std.TreeMap.distinct_keys_toList, lookup_toList]

theorem ofPieces_concat (pieces : List (List (Contribution σ))) (piece : List (Contribution σ)) :
    ofPieces arith (pieces ++ [piece]) =
      (ofPieces arith pieces).merge arith (ofList arith piece) := by
  rw [ofPieces, List.foldl_append, List.foldl_cons, List.foldl_nil, ofPieces]

/-- The tally at a key is the merge, in order, of its tallies in the pieces that have the key. -/
theorem getElem?_ofPieces (pieces : List (List (Contribution σ))) (key : List Value) :
    (ofPieces arith pieces)[key]? =
      Tally.mergeAll? arith (pieces.filterMap fun piece => (ofList arith piece)[key]?) := by
  induction pieces using List.reverseRecOn with
  | nil => exact Std.TreeMap.getElem?_emptyc
  | append_singleton pieces piece ih =>
    rw [ofPieces_concat, getElem?_merge, ih, List.filterMap_append]
    cases hpiece : (ofList arith piece)[key]? with
    | none => simp [Tally.mergeOption, hpiece]
    | some t =>
      rw [Tally.mergeOption, Tally.getD_mergeAll?, ← Tally.mergeAll_concat]
      simp [Tally.mergeAll?, hpiece]

/-! ## Stored keys -/

/-- Whether all stored keys have a property. -/
def KeysSatisfy (P : List Value → Prop) (groups : Groups σ) : Prop :=
  ∀ key stored, groups.getKey? key = some stored → P stored

theorem keysSatisfy_empty (P : List Value → Prop) : (∅ : Groups σ).KeysSatisfy P := by
  intro key stored h
  rw [Std.TreeMap.getKey?_emptyc] at h
  cases h

theorem KeysSatisfy.alter {P : List Value → Prop} {groups : Groups σ} (h : groups.KeysSatisfy P)
    {key : List Value} (hkey : P key) (f : Option (Tally σ) → Option (Tally σ)) :
    KeysSatisfy P (groups.alter key f) := by
  intro asked stored hstored
  rw [Std.TreeMap.getKey?_alter] at hstored
  split at hstored
  · split at hstored
    · cases hstored
      exact hkey
    · cases hstored
  · exact h asked stored hstored

/-- The stored keys are keys of the facts. -/
theorem keysSatisfy_ofList {P : List Value → Prop} {facts : List (Contribution σ)}
    (h : ∀ c ∈ facts, P c.key) : (ofList arith facts).KeysSatisfy P := by
  induction facts using List.reverseRecOn with
  | nil => exact keysSatisfy_empty P
  | append_singleton facts c ih =>
    rw [ofList_concat]
    exact (ih fun c' hc' => h c' (by simp [hc'])).alter (h c (by simp)) _

theorem KeysSatisfy.of_mem_toList {P : List Value → Prop} {groups : Groups σ}
    (h : groups.KeysSatisfy P) {g : List Value × Tally σ} (hg : g ∈ groups.toList) : P g.1 :=
  h g.1 g.1 (Std.TreeMap.mem_toList_iff_getKey?_eq_some_and_getElem?_eq_some.1 hg).1

theorem KeysSatisfy.merge {P : List Value → Prop} {groups other : Groups σ}
    (h : groups.KeysSatisfy P) (hother : other.KeysSatisfy P) :
    (groups.merge arith other).KeysSatisfy P := by
  rw [Groups.merge, Std.TreeMap.foldl_eq_foldl_toList]
  have hkeys : ∀ g ∈ other.toList, P g.1 := fun g => hother.of_mem_toList
  generalize other.toList = gs at hkeys
  induction gs generalizing groups with
  | nil => exact h
  | cons g gs ih =>
    rw [List.forall_mem_cons] at hkeys
    exact ih (h.alter hkeys.1 _) hkeys.2

theorem keysSatisfy_ofPieces {P : List Value → Prop} {pieces : List (List (Contribution σ))}
    (h : ∀ piece ∈ pieces, ∀ c ∈ piece, P c.key) : (ofPieces arith pieces).KeysSatisfy P := by
  induction pieces using List.reverseRecOn with
  | nil => exact keysSatisfy_empty P
  | append_singleton pieces piece ih =>
    rw [ofPieces_concat]
    exact (ih fun p hp => h p (by simp [hp])).merge (keysSatisfy_ofList (h piece (by simp)))

/-! ## Groups as lists -/

/-- Whether all values of a key are regular. -/
def IsRegularKey (key : List Value) : Prop := ∀ value ∈ key, value.Regular

/-- The groups of a regular grouping are its regular keys with a tally. -/
theorem mem_toList_iff {groups : Groups σ} (h : groups.KeysSatisfy IsRegularKey)
    {key : List Value} {t : Tally σ} :
    (key, t) ∈ groups.toList ↔ IsRegularKey key ∧ groups[key]? = some t := by
  rw [Std.TreeMap.mem_toList_iff_getKey?_eq_some_and_getElem?_eq_some]
  constructor
  · rintro ⟨hkey, ht⟩
    exact ⟨h key key hkey, ht⟩
  · rintro ⟨hregular, ht⟩
    refine ⟨?_, ht⟩
    have hmem : key ∈ groups := Std.TreeMap.mem_iff_isSome_getElem?.2 (by rw [ht]; rfl)
    obtain ⟨stored, hstored⟩ :=
      Option.isSome_iff_exists.1 (Std.TreeMap.mem_iff_isSome_getKey?.1 hmem)
    have heq : compareKeys stored key = .eq := by
      have := Std.TreeMap.compare_getKey?_self (t := groups) (k := key)
      simpa [hstored] using this
    rw [hstored, eq_of_compareKeys (h key stored hstored) hregular heq]

/-- Regular groupings that agree at all keys, as far as `f` can tell, agree as lists. -/
theorem map_toList_eq {τ : Type} {groups other : Groups σ} (h : groups.KeysSatisfy IsRegularKey)
    (hother : other.KeysSatisfy IsRegularKey) (f : Tally σ → τ)
    (heq : ∀ key : List Value, groups[key]?.map f = other[key]?.map f) :
    groups.toList.map (Prod.map id f) = other.toList.map (Prod.map id f) := by
  have hordered : ∀ g : Groups σ,
      (g.toList.map (Prod.map id f)).Pairwise fun a b => compareKeys a.1 b.1 = .lt := by
    intro g
    rw [List.pairwise_map]
    exact Std.TreeMap.ordered_keys_toList
  have hmem : ∀ g : Groups σ, g.KeysSatisfy IsRegularKey → ∀ key x,
      (key, x) ∈ g.toList.map (Prod.map id f) ↔ IsRegularKey key ∧ g[key]?.map f = some x := by
    intro g hg key x
    simp only [List.mem_map, Prod.exists, Prod.map_apply, id_eq, Prod.mk.injEq, mem_toList_iff hg,
      Option.map_eq_some_iff]
    constructor
    · rintro ⟨_, t, ⟨hregular, ht⟩, rfl, rfl⟩
      exact ⟨hregular, t, ht, rfl⟩
    · rintro ⟨hregular, t, ht, rfl⟩
      exact ⟨key, t, ⟨hregular, ht⟩, rfl, rfl⟩
  refine List.Perm.eq_of_pairwise ?_ (hordered groups) (hordered other) ?_
  · intro a b _ _ hab hba
    rw [@Std.OrientedCmp.eq_swap _ compareKeys, hba] at hab
    cases hab
  · rw [List.perm_ext_iff_of_nodup]
    · rintro ⟨key, x⟩
      rw [hmem groups h, hmem other hother, heq]
    all_goals
      refine (hordered _).imp fun {a b} hlt => ?_
      rintro rfl
      rw [@Std.ReflCmp.compare_self _ compareKeys] at hlt
      cases hlt

/-- Regular groupings with the same tallies at all keys are the same lists. -/
theorem toList_eq {groups other : Groups σ} (h : groups.KeysSatisfy IsRegularKey)
    (hother : other.KeysSatisfy IsRegularKey)
    (heq : ∀ key : List Value, groups[key]? = other[key]?) : groups.toList = other.toList := by
  have hmap := map_toList_eq h hother id fun key => by rw [heq key]
  rwa [Prod.map_id, List.map_id, List.map_id] at hmap

end Groups

end FactCube
