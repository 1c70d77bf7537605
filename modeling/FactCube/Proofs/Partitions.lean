import FactCube.Cube.Aggregate
import FactCube.Proofs.Batches
import FactCube.Proofs.KeyedGroups
import FactCube.Proofs.PlannedFacts

/-!
# Work in pieces

Large batches of rows are mapped in chunks and large stores are grouped in pieces, side by side. Both
are cut into equal lengths, and the last part may be shorter. Mapping looks at one row at a time, so
the outcomes of the chunks, put together, are those of the batch.

Grouping the pieces of a store apart and merging their groups gives the groups of the whole store:
the same keys, the same counts and as many sums. A sum is then the merge of the sums in the pieces,
which is the sum in one go if the addition is exact.

Results:
* `isCut_chunks`: chunks are the items, cut into equal lengths.
* `mapRows_workers`: with any number of workers, every row has its own outcome in its own place.
* `toList_groupRecords`: with an exact addition, any number of workers finds the same groups.
* `groupRecords_workers`: what the number of workers leaves unchanged.
-/

namespace FactCube

variable {σ : Type} {arith : Arithmetic σ}

/-! ## Pieces -/

/-- Whether parts are some items cut into a length, the last part possibly shorter. -/
structure IsCut {α : Type} (length : Nat) (items : List α) (parts : List (List α)) : Prop where
  flatten_eq : parts.flatten = items
  length_dropLast : ∀ part ∈ parts.dropLast, part.length = length
  length_le : ∀ part ∈ parts, 0 < part.length ∧ part.length ≤ length

theorem chunks_succ {α : Type} (length bound : Nat) {items : List α} (h : items ≠ []) :
    chunks length (bound + 1) items =
      items.take length :: chunks length bound (items.drop length) := by
  rw [chunks, if_neg (by simpa using h)]

theorem chunks_nil {α : Type} (length bound : Nat) : chunks length bound ([] : List α) = [] := by
  cases bound <;> rfl

section Chunks

variable {α : Type} {length bound : Nat} {items : List α}

/-- A chunk leaves the rest to the others. -/
theorem length_drop_le (hbound : items.length ≤ (bound + 1) * length) :
    (items.drop length).length ≤ bound * length := by
  rw [Nat.succ_mul] at hbound
  rw [List.length_drop]
  exact Nat.sub_le_of_le_add hbound

/-- No more chunks are made than allowed for. -/
theorem length_chunks_le (hbound : items.length ≤ bound * length) :
    (chunks length bound items).length ≤ bound := by
  induction bound generalizing items with
  | zero =>
    obtain rfl := List.eq_nil_of_length_eq_zero (by simpa using hbound)
    exact le_rfl
  | succ bound ih =>
    by_cases hempty : items = []
    · rw [hempty, chunks_nil]
      exact Nat.zero_le _
    · rw [chunks_succ length bound hempty, List.length_cons]
      exact Nat.succ_le_succ (ih (length_drop_le hbound))

theorem length_le_of_mem_chunks (hlength : 0 < length) (hbound : items.length ≤ bound * length) :
    ∀ part ∈ chunks length bound items, 0 < part.length ∧ part.length ≤ length := by
  induction bound generalizing items with
  | zero =>
    obtain rfl := List.eq_nil_of_length_eq_zero (by simpa using hbound)
    exact fun _ h => nomatch h
  | succ bound ih =>
    by_cases hempty : items = []
    · subst hempty
      exact fun _ h => nomatch h
    · have hpos := List.length_pos_of_ne_nil hempty
      rw [chunks_succ length bound hempty, List.forall_mem_cons, List.length_take]
      exact ⟨by omega, ih (length_drop_le hbound)⟩

/-- A part that is not the last one has something behind it, so it has the full length. -/
theorem length_of_mem_dropLast_chunks (hbound : items.length ≤ bound * length) :
    ∀ part ∈ (chunks length bound items).dropLast, part.length = length := by
  induction bound generalizing items with
  | zero =>
    obtain rfl := List.eq_nil_of_length_eq_zero (by simpa using hbound)
    exact fun _ h => nomatch h
  | succ bound ih =>
    by_cases hempty : items = []
    · subst hempty
      exact fun _ h => nomatch h
    · have ih := ih (length_drop_le hbound)
      rw [chunks_succ length bound hempty]
      by_cases hrest : chunks length bound (items.drop length) = []
      · rw [hrest]
        exact fun _ h => nomatch h
      · have hmore : items.drop length ≠ [] := by
          intro hnil
          rw [hnil, chunks_nil] at hrest
          exact hrest rfl
        have hlt := List.length_pos_of_ne_nil hmore
        rw [List.length_drop] at hlt
        rw [List.dropLast_cons_of_ne_nil hrest, List.forall_mem_cons, List.length_take]
        exact ⟨by omega, ih⟩

/-- Chunks are the items, cut into equal lengths. -/
theorem isCut_chunks (hlength : 0 < length) (hbound : items.length ≤ bound * length) :
    IsCut length items (chunks length bound items) :=
  ⟨flatten_chunks _ _ _, length_of_mem_dropLast_chunks hbound,
    length_le_of_mem_chunks hlength hbound⟩

end Chunks

/-- The pieces are the records, cut into equal lengths. -/
theorem isCut_pieces {α : Type} (workers : Nat) (items : List α) :
    IsCut (Nat.max (ceilDiv items.length workers) leastPiece) items (pieces workers items) :=
  have hpos : 0 < Nat.max (ceilDiv items.length workers) leastPiece :=
    Nat.lt_of_lt_of_le (by decide) (Nat.le_max_right _ leastPiece)
  isCut_chunks hpos (Nat.le_mul_of_pos_right _ hpos)

/-! ## Quotients rounded up -/

theorem lt_ceilDiv_iff {k n d : Nat} (hd : 0 < d) : k < ceilDiv n d ↔ k * d < n := by
  rw [ceilDiv, ← Nat.succ_le_iff, Nat.le_div_iff_mul_le hd, Nat.succ_mul]
  omega

theorem le_ceilDiv_mul (n : Nat) {d : Nat} (hd : 0 < d) : n ≤ ceilDiv n d * d :=
  Nat.le_of_not_lt fun h => Nat.lt_irrefl _ ((lt_ceilDiv_iff hd).2 h)

/-- A quotient rounded up is the quotient, and one more where something remains. -/
theorem ceilDiv_eq (n : Nat) {d : Nat} (hd : 0 < d) :
    ceilDiv n d = if n % d = 0 then n / d else n / d + 1 := by
  have hsum : n / d * d + n % d = n := Nat.div_add_mod' n d
  have hmod : n % d < d := Nat.mod_lt n hd
  refine eq_of_forall_lt_iff fun k => ?_
  rw [lt_ceilDiv_iff hd]
  split
  · rename_i hzero
    have hscale : k * d < n / d * d ↔ k < n / d := Nat.mul_lt_mul_right hd
    omega
  · rw [Nat.lt_succ_iff]
    constructor
    · intro hlt
      by_contra hgt
      have hmul := Nat.mul_le_mul_right d (Nat.succ_le_of_lt (Nat.lt_of_not_le hgt))
      rw [Nat.succ_mul] at hmul
      omega
    · intro hle
      have hmul := Nat.mul_le_mul_right d hle
      omega

/-! ## Batches in chunks -/

/-- The chunks in which more than one worker maps a batch that is not short. -/
def rowChunks (workers : Nat) (rows : List Row) : List (List Row) :=
  chunks (ceilDiv rows.length workers) workers rows

/-- The chunks are the rows, cut into equal lengths, and there is a worker for each. -/
theorem isCut_rowChunks {workers : Nat} {rows : List Row} (hworkers : 0 < workers)
    (hrows : rows ≠ []) :
    IsCut (ceilDiv rows.length workers) rows (rowChunks workers rows) ∧
      (rowChunks workers rows).length ≤ workers := by
  have hpos : 0 < ceilDiv rows.length workers := by
    rw [lt_ceilDiv_iff hworkers, Nat.zero_mul]
    exact List.length_pos_of_ne_nil hrows
  have hbound : rows.length ≤ workers * ceilDiv rows.length workers := by
    rw [Nat.mul_comm]
    exact le_ceilDiv_mul _ hworkers
  exact ⟨isCut_chunks hpos hbound, length_chunks_le hbound⟩

/-- How outcomes are those of the rows of a batch, and how several workers come to them. -/
structure IsMappedInOrder (schema : Schema) (rows : List Row) (workers : Nat)
    (outcomes : List (Except RowFault Record)) : Prop where
  /-- There is one outcome for each row, in the order of the rows. -/
  eq_map : outcomes = rows.map (mapRow schema)
  length_eq : outcomes.length = rows.length
  getElem?_eq : ∀ i : Nat, outcomes[i]? = rows[i]?.map (mapRow schema)
  /-- One worker finds the same, and so does any other number. -/
  eq_workers : ∀ others, outcomes = mapRows schema rows others
  /-- A batch that is not short is cut up, and every chunk has a worker. -/
  isCut : 1 < workers → parallelThreshold ≤ rows.length →
    IsCut (ceilDiv rows.length workers) rows (rowChunks workers rows) ∧
      (rowChunks workers rows).length ≤ workers
  /-- The outcomes of the chunks, put together in order, are the outcomes. -/
  eq_flatMap : 1 < workers → parallelThreshold ≤ rows.length →
    outcomes = (rowChunks workers rows).flatMap fun chunk => mapRows schema chunk 1

/-- With any number of workers, every row has its own outcome in its own place. -/
theorem mapRows_workers (schema : Schema) (rows : List Row) (workers : Nat) :
    IsMappedInOrder schema rows workers (mapRows schema rows workers) := by
  have hmap := mapRows_eq schema rows
  constructor
  · exact hmap workers
  · rw [hmap, List.length_map]
  · intro i
    rw [hmap, List.getElem?_map]
  · intro others
    rw [hmap, hmap]
  · intro hworkers hrows
    have hne : rows ≠ [] := List.ne_nil_of_length_pos (Nat.lt_of_lt_of_le (by decide) hrows)
    exact isCut_rowChunks (Nat.zero_lt_of_lt hworkers) hne
  · intro _ _
    rw [hmap, rowChunks]
    simp only [mapRows_eq, ← List.map_flatten, flatten_chunks, List.flatMap_def]

/-! ## Tallies of parts -/

namespace Tally

/-- The tallies of the parts that have facts. -/
def ofParts (arith : Arithmetic σ) (parts : List (List (List σ))) : List (Tally σ) :=
  parts.filterMap (ofList? arith)

theorem ofParts_concat_nil (parts : List (List (List σ))) :
    ofParts arith (parts ++ [[]]) = ofParts arith parts := by
  rw [ofParts, List.filterMap_append]
  exact List.append_nil _

theorem ofParts_concat (parts : List (List (List σ))) {part : List (List σ)} (h : part ≠ []) :
    ofParts arith (parts ++ [part]) = ofParts arith parts ++ [ofList arith part] := by
  have hpart : ofList? arith part = some (ofList arith part) := by
    rw [ofList?, if_neg (by simpa using h)]
  rw [ofParts, List.filterMap_append, List.filterMap_cons_some hpart, List.filterMap_nil, ofParts]

/-- Parts have a tally iff they have a fact. -/
theorem ofParts_eq_nil_iff (parts : List (List (List σ))) :
    ofParts arith parts = [] ↔ parts.flatten = [] := by
  have hpart : ∀ part : List (List σ), ofList? arith part = none ↔ part = [] := by
    intro part
    cases part <;> simp [ofList?]
  simp only [ofParts, List.filterMap_eq_nil_iff, List.flatten_eq_nil_iff, hpart]

/-- Every fact of the parts counts once. -/
theorem count_mergeAll_ofParts (parts : List (List (List σ))) :
    (mergeAll arith (ofParts arith parts)).count = parts.flatten.length := by
  induction parts using List.reverseRecOn with
  | nil => rfl
  | append_singleton parts part ih =>
    rw [List.flatten_append, List.flatten_singleton]
    by_cases h : part = []
    · rw [h, ofParts_concat_nil, ih, List.append_nil]
    · rw [ofParts_concat parts h, mergeAll_concat, merge, ih, count_ofList, List.length_append]

theorem length_sums_ofList {n : Nat} {facts : List (List σ)}
    (h : ∀ amounts ∈ facts, amounts.length = n) :
    (ofList arith facts).sums.length = if facts.isEmpty then 0 else n := by
  induction facts using List.reverseRecOn with
  | nil => rfl
  | append_singleton facts amounts ih =>
    rw [ofList_concat, add, Arithmetic.length_addSums, h amounts (by simp),
      ih fun other hother => h other (by simp [hother])]
    split <;> simp

/-- Merged tallies have as many sums as there are measures. -/
theorem length_sums_mergeAll_ofParts {n : Nat} {parts : List (List (List σ))}
    (hlength : ∀ amounts ∈ parts.flatten, amounts.length = n) :
    (mergeAll arith (ofParts arith parts)).sums.length =
      if parts.flatten.isEmpty then 0 else n := by
  induction parts using List.reverseRecOn with
  | nil => rfl
  | append_singleton parts part ih =>
    rw [List.flatten_append, List.flatten_singleton] at hlength ⊢
    have ih := ih fun amounts hmem => hlength amounts (List.mem_append_left _ hmem)
    by_cases h : part = []
    · rw [h, ofParts_concat_nil, ih, List.append_nil]
    · rw [ofParts_concat parts h, mergeAll_concat, merge, Arithmetic.length_addSums, ih,
        length_sums_ofList fun other hmem => hlength other (List.mem_append_right _ hmem)]
      split <;> simp [h]

/-- With an exact addition, the merge of the parts is the tally of the whole. -/
theorem mergeAll_ofParts (hexact : arith.IsExact) (parts : List (List (List σ))) :
    mergeAll arith (ofParts arith parts) = ofList arith parts.flatten := by
  induction parts using List.reverseRecOn with
  | nil => rfl
  | append_singleton parts part ih =>
    rw [List.flatten_append, List.flatten_singleton]
    by_cases h : part = []
    · rw [h, ofParts_concat_nil, ih, List.append_nil]
    · rw [ofParts_concat parts h, mergeAll_concat, ih, ofList_append hexact]

/-- What of a tally does not depend on how its facts were added: the count of the facts and the
number of sums. -/
def shape (t : Tally σ) : Nat × Nat := (t.count, t.sums.length)

theorem shape_ofList? {n : Nat} {facts : List (List σ)}
    (hlength : ∀ amounts ∈ facts, amounts.length = n) :
    (ofList? arith facts).map shape = if facts.isEmpty then none else some (facts.length, n) := by
  rw [ofList?]
  split
  · rfl
  · rename_i hempty
    rw [Option.map_some, shape, count_ofList, length_sums_ofList hlength, if_neg hempty]

theorem shape_mergeAll?_ofParts {n : Nat} {parts : List (List (List σ))}
    (hlength : ∀ amounts ∈ parts.flatten, amounts.length = n) :
    (mergeAll? arith (ofParts arith parts)).map shape =
      (ofList? arith parts.flatten).map shape := by
  rw [mergeAll?, shape_ofList? hlength]
  by_cases h : parts.flatten = []
  · rw [(ofParts_eq_nil_iff parts).2 h, h]
    rfl
  · have hparts : ofParts arith parts ≠ [] := fun hnil => h ((ofParts_eq_nil_iff parts).1 hnil)
    rw [if_neg (by simpa using hparts), if_neg (by simpa using h), Option.map_some, shape,
      count_mergeAll_ofParts, length_sums_mergeAll_ofParts hlength, if_neg (by simpa using h)]

theorem mergeAll?_ofParts (hexact : arith.IsExact) (parts : List (List (List σ))) :
    mergeAll? arith (ofParts arith parts) = ofList? arith parts.flatten := by
  rw [mergeAll?, ofList?, mergeAll_ofParts hexact]
  by_cases h : parts.flatten = []
  · rw [(ofParts_eq_nil_iff parts).2 h, h]
    rfl
  · have hparts : ofParts arith parts ≠ [] := fun hnil => h ((ofParts_eq_nil_iff parts).1 hnil)
    rw [if_neg (by simpa using hparts), if_neg (by simpa using h)]

end Tally

/-! ## Groups of parts -/

namespace Groups

theorem getElem?_ofPieces_eq (parts : List (List (Contribution σ))) (key : List Value) :
    (ofPieces arith parts)[key]? =
      Tally.mergeAll? arith (Tally.ofParts arith (parts.map (amountsAt key))) := by
  rw [getElem?_ofPieces, Tally.ofParts, List.filterMap_map]
  simp only [getElem?_ofList]
  rfl

theorem length_of_mem_amountsAt {n : Nat} {facts : List (Contribution σ)}
    (h : ∀ c ∈ facts, c.amounts.length = n) {key : List Value} {amounts : List σ}
    (hmem : amounts ∈ amountsAt key facts) : amounts.length = n := by
  obtain ⟨c, hc, rfl⟩ := List.mem_map.1 hmem
  exact h c (List.mem_of_mem_filter hc)

/-- Merged parts have the keys and the shapes of the whole. -/
theorem shape_ofPieces {n : Nat} {parts : List (List (Contribution σ))}
    (hregular : ∀ c ∈ parts.flatten, IsRegularKey c.key)
    (hlength : ∀ c ∈ parts.flatten, c.amounts.length = n) :
    (ofPieces arith parts).toList.map (Prod.map id Tally.shape) =
      (ofList arith parts.flatten).toList.map (Prod.map id Tally.shape) := by
  refine map_toList_eq ?_ (keysSatisfy_ofList hregular) _ fun key => ?_
  · refine keysSatisfy_ofPieces fun part hpart c hc => hregular c ?_
    exact List.mem_flatten_of_mem hpart hc
  · rw [getElem?_ofPieces_eq, getElem?_ofList, amountsAt_flatten]
    apply Tally.shape_mergeAll?_ofParts
    rw [← amountsAt_flatten]
    intro amounts hamounts
    exact length_of_mem_amountsAt hlength hamounts

/-- With an exact addition, merged parts are the groups of the whole. -/
theorem toList_ofPieces (hexact : arith.IsExact) {parts : List (List (Contribution σ))}
    (hregular : ∀ c ∈ parts.flatten, IsRegularKey c.key) :
    (ofPieces arith parts).toList = (ofList arith parts.flatten).toList := by
  refine toList_eq ?_ (keysSatisfy_ofList hregular) fun key => ?_
  · refine keysSatisfy_ofPieces fun part hpart c hc => hregular c ?_
    exact List.mem_flatten_of_mem hpart hc
  · rw [getElem?_ofPieces_eq, getElem?_ofList, amountsAt_flatten, Tally.mergeAll?_ofParts hexact]

end Groups

/-! ## Workers -/

section Workers

variable {schema : Schema} {plan : Plan} {members? : Option (Std.TreeSet String)}
  {records : List Record}

/-- The groups of some records, taken one after the other. -/
def foldRecords (arith : Arithmetic σ) (plan : Plan) (members? : Option (Std.TreeSet String))
    (records : List Record) : Groups σ :=
  .ofList arith (records.filterMap (contribution? arith plan members?))

theorem getElem?_foldRecords (key : List Value) :
    (foldRecords arith plan members? records)[key]? =
      Tally.ofList? arith
        (Groups.amountsAt key (records.filterMap (contribution? arith plan members?))) :=
  Groups.getElem?_ofList _ key

theorem regular_of_mem_contributions (hschema : schema.WellFormed)
    (hrecords : ∀ record ∈ records, schema.IsFact record) :
    ∀ c ∈ records.filterMap (contribution? arith plan members?), Groups.IsRegularKey c.key := by
  intro c hc
  obtain ⟨record, hrecord, hcontribution⟩ := List.mem_filterMap.1 hc
  exact regular_of_contribution? hschema (hrecords record hrecord) hcontribution

theorem keysSatisfy_foldRecords (hschema : schema.WellFormed)
    (hrecords : ∀ record ∈ records, schema.IsFact record) :
    (foldRecords arith plan members? records).KeysSatisfy Groups.IsRegularKey :=
  Groups.keysSatisfy_ofList (regular_of_mem_contributions hschema hrecords)

theorem length_of_mem_contributions :
    ∀ c ∈ records.filterMap (contribution? arith plan members?),
      c.amounts.length = plan.measures.length := by
  intro c hc
  obtain ⟨record, -, hcontribution⟩ := List.mem_filterMap.1 hc
  rw [contribution?] at hcontribution
  split at hcontribution
  · obtain ⟨key, -, rfl⟩ := Option.map_eq_some_iff.1 hcontribution
    exact Arithmetic.length_amounts plan record.contents
  · cases hcontribution

theorem groupRecords_of_few {workers : Nat}
    (h : workers ≤ 1 ∨ records.length < 2 * leastPiece) :
    groupRecords arith plan members? workers records = foldRecords arith plan members? records := by
  rw [groupRecords, if_pos h, foldRecords]

theorem groupRecords_of_many {workers : Nat}
    (h : ¬(workers ≤ 1 ∨ records.length < 2 * leastPiece)) :
    groupRecords arith plan members? workers records =
      .ofPieces arith ((pieces workers records).map
        (List.filterMap (contribution? arith plan members?))) := by
  rw [groupRecords, if_neg h]

theorem flatten_contributions (workers : Nat) :
    ((pieces workers records).map
      (List.filterMap (contribution? arith plan members?))).flatten =
        records.filterMap (contribution? arith plan members?) := by
  conv_rhs => rw [← (isCut_pieces workers records).flatten_eq]
  rw [List.filterMap_flatten]

/-- With any number of workers, the keys, the counts and the numbers of sums are those of one
fold. -/
theorem shape_groupRecords (hschema : schema.WellFormed)
    (hrecords : ∀ record ∈ records, schema.IsFact record) (workers : Nat) :
    (groupRecords arith plan members? workers records).toList.map (Prod.map id Tally.shape) =
      (foldRecords arith plan members? records).toList.map (Prod.map id Tally.shape) := by
  by_cases h : workers ≤ 1 ∨ records.length < 2 * leastPiece
  · rw [groupRecords_of_few h]
  · rw [groupRecords_of_many h, foldRecords, ← flatten_contributions workers]
    apply Groups.shape_ofPieces
    · rw [flatten_contributions]
      exact regular_of_mem_contributions hschema hrecords
    · rw [flatten_contributions]
      exact length_of_mem_contributions

/-- With an exact addition, the number of workers does not matter. -/
theorem toList_groupRecords (hexact : arith.IsExact) (hschema : schema.WellFormed)
    (hrecords : ∀ record ∈ records, schema.IsFact record) (workers : Nat) :
    (groupRecords arith plan members? workers records).toList =
      (foldRecords arith plan members? records).toList := by
  by_cases h : workers ≤ 1 ∨ records.length < 2 * leastPiece
  · rw [groupRecords_of_few h]
  · rw [groupRecords_of_many h, foldRecords, ← flatten_contributions workers]
    apply Groups.toList_ofPieces hexact
    rw [flatten_contributions]
    exact regular_of_mem_contributions hschema hrecords

/-- Where a store is grouped in pieces, a tally is the merge of the tallies in the pieces. -/
theorem getElem?_groupRecords {workers : Nat}
    (h : ¬(workers ≤ 1 ∨ records.length < 2 * leastPiece)) (key : List Value) :
    (groupRecords arith plan members? workers records)[key]? =
      Tally.mergeAll? arith ((pieces workers records).filterMap fun part =>
        (foldRecords arith plan members? part)[key]?) := by
  rw [groupRecords_of_many h, Groups.getElem?_ofPieces, List.filterMap_map]
  rfl

/-- How the groups of some workers agree with one fold over the facts: in the keys, the counts and
the numbers of sums. Few records are grouped in one fold; many are cut into pieces, and the tally of
a key is the merge, in order, of its tallies in the pieces that have it. With an exact addition
nothing differs. -/
structure AgreesWithFold (arith : Arithmetic σ) (plan : Plan)
    (members? : Option (Std.TreeSet String)) (workers : Nat) (records : List Record) : Prop where
  shapes_eq :
    (groupRecords arith plan members? workers records).toList.map (Prod.map id Tally.shape) =
      (foldRecords arith plan members? records).toList.map (Prod.map id Tally.shape)
  few : workers ≤ 1 ∨ records.length < 2 * leastPiece →
    groupRecords arith plan members? workers records = foldRecords arith plan members? records
  many : ¬(workers ≤ 1 ∨ records.length < 2 * leastPiece) →
    ∃ parts, IsCut (Nat.max (ceilDiv records.length workers) leastPiece) records parts ∧
      ∀ key : List Value, (groupRecords arith plan members? workers records)[key]? =
        Tally.mergeAll? arith (parts.filterMap fun part =>
          (foldRecords arith plan members? part)[key]?)
  exact_eq : arith.IsExact →
    (groupRecords arith plan members? workers records).toList =
      (foldRecords arith plan members? records).toList

end Workers

/-! ## Answers -/

theorem Aggregate.ofGroups_congr {plan : Plan} {groups other : Groups σ}
    (h : groups.toList = other.toList) :
    Aggregate.ofGroups arith plan groups = Aggregate.ofGroups arith plan other := by
  simp only [Aggregate.ofGroups, groupRows, h]

namespace Sample

/-- A store that is just large enough to be cut into pieces. -/
def largeStore : Store := ⟨Array.replicate (2 * leastPiece) (fact true "a" "North" 5), ∅, ∅⟩

theorem toList_largeStore :
    largeStore.toList = List.replicate (2 * leastPiece) (fact true "a" "North" 5) :=
  Array.toList_replicate

theorem isFact_largeStore : ∀ record ∈ largeStore.toList, (schema true).IsFact record := by
  intro record hrecord
  rw [toList_largeStore] at hrecord
  rw [List.eq_of_mem_replicate hrecord]
  exact @isFact_fact true _ _ "5" _ rfl rfl rfl rfl

end Sample

namespace Store

theorem aggregateWith_workers (hexact : arith.IsExact) {schema : Schema}
    (hschema : schema.WellFormed) {store : Store}
    (hfacts : ∀ record ∈ store.toList, schema.IsFact record) (workers : Nat) (query : Query) :
    store.aggregateWith arith schema workers query = store.aggregateWith arith schema 1 query := by
  have hgroups : ∀ (plan : Plan) (members? : Option (Std.TreeSet String)),
      Aggregate.ofGroups arith plan (groupRecords arith plan members? workers store.toList) =
        Aggregate.ofGroups arith plan (groupRecords arith plan members? 1 store.toList) := by
    intro plan members?
    apply Aggregate.ofGroups_congr
    rw [toList_groupRecords hexact hschema hfacts, toList_groupRecords hexact hschema hfacts]
  simp only [aggregateWith, hgroups]

/-- With any number of workers, the groups of a store agree with one fold over its facts, and with
an exact addition so do all answers. -/
theorem groupRecords_workers {doc : Document} {schema : Schema} (hvalid : doc.validate = .ok schema)
    {store : Store} (hfacts : ∀ record ∈ store.toList, schema.IsFact record)
    (arith : Arithmetic σ) (plan : Plan) (members? : Option (Std.TreeSet String)) (workers : Nat) :
    AgreesWithFold arith plan members? workers store.toList ∧
      (arith.IsExact → ∀ query, store.aggregateWith arith schema workers query =
        store.aggregateWith arith schema 1 query) := by
  have hschema := Document.wellFormed_of_validate hvalid
  constructor
  · constructor
    · exact shape_groupRecords hschema hfacts workers
    · exact groupRecords_of_few
    · exact fun hmany => ⟨_, isCut_pieces workers store.toList, getElem?_groupRecords hmany⟩
    · exact fun hexact => toList_groupRecords hexact hschema hfacts workers
  · exact fun hexact => aggregateWith_workers hexact hschema hfacts workers

/-- Three workers group a store that is just large enough to be cut. -/
theorem groupRecords_workers_sample :
    (Sample.document true).validate = .ok (Sample.schema true) ∧
      (∀ record ∈ Sample.largeStore.toList, (Sample.schema true).IsFact record) ∧
      ¬(3 ≤ 1 ∨ Sample.largeStore.toList.length < 2 * leastPiece) ∧
      AgreesWithFold .binary64 Sample.plan none 3 Sample.largeStore.toList ∧
      ∀ query, Sample.largeStore.aggregateWith .rational (Sample.schema true) 3 query =
        Sample.largeStore.aggregateWith .rational (Sample.schema true) 1 query := by
  refine ⟨Sample.validate true, Sample.isFact_largeStore, ?_, ?_, ?_⟩
  · rw [Sample.toList_largeStore, List.length_replicate]
    omega
  · exact (groupRecords_workers (Sample.validate true) Sample.isFact_largeStore .binary64
      Sample.plan none 3).1
  · exact (groupRecords_workers (Sample.validate true) Sample.isFact_largeStore .rational
      Sample.plan none 3).2 Arithmetic.isExact_rational

end Store

end FactCube
