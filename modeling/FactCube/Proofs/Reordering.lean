import FactCube.Cube.View
import FactCube.Proofs.Identity
import FactCube.Proofs.Partitions

/-!
# The order of rows

Rows loaded into an empty store in another order become the same facts in another order, where their
ids do not clash. Then all groups have the same keys and counts, and with an exact addition every
view and every query has the same answer. Where a dataset has no keys, the ids contain the positions
of the rows; they differ between the two loads, but no answer depends on them.

Results:
* `nodup_stamped`: ordinals keep ids apart, unless the hash collides on them.
* `loadRows_empty`: a load into an empty store keeps all contents, in the order of the rows.
* `SameFacts.sameAnswers`: stores of the same facts in any order answer everything alike.
* `loadRows_perm`: the order of the rows does not change what is answered.
-/

namespace FactCube

variable {σ : Type} {arith : Arithmetic σ}

/-! ## Ordinals -/

/-- Numbers with the same higher bits and the same next byte have the same bits from there on. -/
theorem shiftRight_eq_of_byte {m n shift : Nat} (hhigh : m >>> (shift + 8) = n >>> (shift + 8))
    (hbyte : UInt8.ofNat (m >>> shift) = UInt8.ofNat (n >>> shift)) :
    m >>> shift = n >>> shift := by
  have hmod : (m >>> shift) % 256 = (n >>> shift) % 256 := by
    simpa using congrArg UInt8.toNat hbyte
  rw [Nat.shiftRight_add, Nat.shiftRight_add, Nat.shiftRight_eq_div_pow _ 8,
    Nat.shiftRight_eq_div_pow _ 8] at hhigh
  omega

theorem ordinalBytes_injective {m n : Nat} (hm : m < 2 ^ 64) (hn : n < 2 ^ 64)
    (h : ordinalBytes m = ordinalBytes n) : m = n := by
  simp only [ordinalBytes, List.map_cons, List.map_nil, List.cons.injEq, and_true] at h
  obtain ⟨h0, h8, h16, h24, h32, h40, h48, h56⟩ := h
  have htop : m >>> (56 + 8) = n >>> (56 + 8) := by
    rw [Nat.shiftRight_eq_div_pow, Nat.shiftRight_eq_div_pow, Nat.div_eq_of_lt hm,
      Nat.div_eq_of_lt hn]
  have h56 := shiftRight_eq_of_byte htop h56
  have h48 := shiftRight_eq_of_byte h56 h48
  have h40 := shiftRight_eq_of_byte h48 h40
  have h32 := shiftRight_eq_of_byte h40 h32
  have h24 := shiftRight_eq_of_byte h32 h24
  have h16 := shiftRight_eq_of_byte h24 h16
  have h8 := shiftRight_eq_of_byte h16 h8
  exact shiftRight_eq_of_byte h8 h0

/-- What is hashed to fold an ordinal into the id of a record. -/
def ordinalMessage (record : Record) (ordinal : Nat) : List UInt8 :=
  textBytes record.id ++ 0x1D :: ordinalBytes ordinal

/-- What is hashed for some records whose ordinals start at `start`. -/
def ordinalMessages (start : Nat) (records : List Record) : List (List UInt8) :=
  (records.zipIdx start).map fun (record, ordinal) => ordinalMessage record ordinal

/-- Some records under the ids they get one after the other in a store of a size. -/
def stampAll (keyed : Bool) (size : Nat) (records : List Record) : List Record :=
  (records.zipIdx size).map fun (record, ordinal) => stamp keyed ordinal record

theorem ordinalMessage_injective {a b : Record} {m n : Nat} (hm : m < 2 ^ 64) (hn : n < 2 ^ 64)
    (h : ordinalMessage a m = ordinalMessage b n) : m = n := by
  have hlength : ∀ k, (0x1D :: ordinalBytes k).length = 9 := fun _ => rfl
  have htail := List.append_inj_right' h (by rw [hlength, hlength])
  rw [List.cons.injEq] at htail
  exact ordinalBytes_injective hm hn htail.2

theorem nodup_ordinalMessages {records : List Record} (hlength : records.length ≤ 2 ^ 64) :
    (ordinalMessages 0 records).Nodup := by
  have hordinals : (records.zipIdx.map Prod.snd).Nodup := by
    rw [List.zipIdx_map_snd]
    exact List.nodup_range'
  rw [List.Nodup, List.pairwise_map] at hordinals
  rw [ordinalMessages, List.Nodup, List.pairwise_map]
  refine hordinals.imp_of_mem fun {a b} ha hb hne heq => hne ?_
  have ha := List.snd_lt_of_mem_zipIdx ha
  have hb := List.snd_lt_of_mem_zipIdx hb
  exact ordinalMessage_injective (by omega) (by omega) heq

/-- Ordinals keep ids apart, unless the hash collides on them. -/
theorem nodup_stamped {records : List Record} (hlength : records.length ≤ 2 ^ 64)
    (hfree : Sha256.IsCollisionFree (ordinalMessages 0 records)) :
    ((stampAll false 0 records).map Record.id).Nodup := by
  have hids : (stampAll false 0 records).map Record.id =
      (ordinalMessages 0 records).map Sha256.hex := by
    rw [stampAll, ordinalMessages, List.map_map, List.map_map]
    rfl
  rw [hids]
  exact (List.nodup_map_iff_inj_on (nodup_ordinalMessages hlength)).2 hfree

theorem stampAll_true (size : Nat) (records : List Record) :
    stampAll true size records = records := by
  rw [stampAll]
  exact List.zipIdx_map_fst size records

theorem map_contents_stampAll (keyed : Bool) (size : Nat) (records : List Record) :
    (stampAll keyed size records).map Record.contents = records.map Record.contents := by
  rw [stampAll, List.map_map]
  conv_rhs => rw [← List.zipIdx_map_fst size records, List.map_map]
  refine List.map_congr_left fun ⟨record, ordinal⟩ _ => ?_
  cases keyed <;> rfl

/-! ## Loads of rows with different ids -/

/-- Records with different ids are put in one behind the other. -/
theorem putFacts_of_nodup {keyed : Bool} {records stored : List Record}
    (h : ((stored ++ stampAll keyed stored.length records).map Record.id).Nodup) :
    putFacts keyed records stored = stored ++ stampAll keyed stored.length records := by
  induction records generalizing stored with
  | nil => exact (List.append_nil stored).symm
  | cons record records ih =>
    have hcons : stampAll keyed stored.length (record :: records) =
        stamp keyed stored.length record :: stampAll keyed (stored.length + 1) records := rfl
    rw [hcons, List.append_cons] at h ⊢
    have hfresh : (stamp keyed stored.length record).id ∉ stored.map Record.id := by
      rw [List.append_assoc, List.map_append, List.nodup_append] at h
      intro hmem
      exact h.2.2 _ hmem _ (by simp) rfl
    have hlength : stored.length + 1 = (stored ++ [stamp keyed stored.length record]).length := by
      rw [List.length_append, List.length_singleton]
    rw [putFacts, List.foldl_cons, putRecord_of_notMem hfresh]
    rw [hlength] at h ⊢
    exact ih h

/-- Whether the records of some rows cannot replace each other: with keys their ids differ; without
keys their ordinals fit into eight bytes and the hash has no collision on them. -/
structure KeepsApart (schema : Schema) (records : List Record) : Prop where
  keyed : schema.keys ≠ [] → (records.map Record.id).Nodup
  keyless : schema.keys = [] →
    records.length ≤ 2 ^ 64 ∧ Sha256.IsCollisionFree (ordinalMessages 0 records)

/-- A load into the empty store keeps all contents in the order of the rows. -/
theorem loadRows_empty {schema : Schema} {rows : List Row} {records : List Record}
    (hrecords : MapsTo schema rows records) (hapart : KeepsApart schema records) (mode : LoadMode)
    (workers : Nat) :
    ∃ report after, (loadRows schema mode workers rows).run Store.empty = (.ok report, after) ∧
      after.toList.map Record.contents = records.map Record.contents := by
  obtain ⟨replaced, after, hrun, hinserted⟩ := loadRows_of_mapsTo hrecords mode workers .empty
  refine ⟨_, after, hrun, ?_⟩
  have hids : ((stampAll (!schema.keys.isEmpty) 0 records).map Record.id).Nodup := by
    by_cases hkeys : schema.keys = []
    · obtain ⟨hlength, hfree⟩ := hapart.keyless hkeys
      rw [hkeys]
      exact nodup_stamped hlength hfree
    · rw [show (!schema.keys.isEmpty) = true by simpa using hkeys, stampAll_true]
      exact hapart.keyed hkeys
  rw [hinserted.toList_eq, show Store.empty.toList = [] from rfl, putFacts_of_nodup hids,
    List.nil_append]
  exact map_contents_stampAll _ _ _

/-! ## Facts in another order -/

/-- Whether two lists hold facts of a schema with the same contents, in some order. -/
structure SameFacts (schema : Schema) (records other : List Record) : Prop where
  wellFormed : schema.WellFormed
  left : ∀ record ∈ records, schema.IsFact record
  right : ∀ record ∈ other, schema.IsFact record
  perm : (records.map Record.contents).Perm (other.map Record.contents)

section Permuted

variable {schema : Schema} {plan : Plan} {records other : List Record}

/-- Without a collection only the contents of a record matter. -/
theorem contributions_eq_of_contents (records : List Record) :
    records.filterMap (contribution? arith plan none) =
      (records.map Record.contents).filterMap fun contents =>
        contribution? arith plan none ⟨"", contents⟩ := by
  rw [List.filterMap_map]
  rfl

theorem SameFacts.contributions (h : SameFacts schema records other) :
    (records.filterMap (contribution? arith plan none)).Perm
      (other.filterMap (contribution? arith plan none)) := by
  rw [contributions_eq_of_contents records, contributions_eq_of_contents other]
  exact h.perm.filterMap _

theorem Tally.shape_ofList?_perm {n : Nat} {as bs : List (List σ)} (h : as.Perm bs)
    (hlength : ∀ amounts ∈ bs, amounts.length = n) :
    (Tally.ofList? arith as).map Tally.shape = (Tally.ofList? arith bs).map Tally.shape := by
  rw [Tally.shape_ofList? hlength, Tally.shape_ofList? fun amounts hmem =>
    hlength amounts (h.mem_iff.1 hmem), h.length_eq, h.isEmpty_eq]

theorem Tally.ofList?_perm (hexact : arith.IsExact) {as bs : List (List σ)} (h : as.Perm bs) :
    Tally.ofList? arith as = Tally.ofList? arith bs := by
  rw [Tally.ofList?, Tally.ofList?, Tally.ofList_perm hexact h, h.isEmpty_eq]

/-- The keys and the shapes of the groups do not depend on the order of the facts. -/
theorem SameFacts.shape_foldRecords (h : SameFacts schema records other) :
    (foldRecords arith plan none records).toList.map (Prod.map id Tally.shape) =
      (foldRecords arith plan none other).toList.map (Prod.map id Tally.shape) := by
  refine Groups.map_toList_eq (keysSatisfy_foldRecords h.wellFormed h.left)
    (keysSatisfy_foldRecords h.wellFormed h.right) _ fun key => ?_
  rw [getElem?_foldRecords, getElem?_foldRecords]
  exact Tally.shape_ofList?_perm (Groups.amountsAt_perm key h.contributions)
    fun _ => Groups.length_of_mem_amountsAt length_of_mem_contributions

/-- With an exact addition, the groups do not depend on the order of the facts. -/
theorem SameFacts.toList_foldRecords (h : SameFacts schema records other)
    (hexact : arith.IsExact) :
    (foldRecords arith plan none records).toList = (foldRecords arith plan none other).toList := by
  refine Groups.toList_eq (keysSatisfy_foldRecords h.wellFormed h.left)
    (keysSatisfy_foldRecords h.wellFormed h.right) fun key => ?_
  rw [getElem?_foldRecords, getElem?_foldRecords]
  exact Tally.ofList?_perm hexact (Groups.amountsAt_perm key h.contributions)

/-- The keys and the shapes depend neither on the order of the facts nor on the workers. -/
theorem SameFacts.shape_groupRecords (h : SameFacts schema records other) (plan : Plan)
    (workers workers' : Nat) :
    (groupRecords arith plan none workers records).toList.map (Prod.map id Tally.shape) =
      (groupRecords arith plan none workers' other).toList.map (Prod.map id Tally.shape) := by
  rw [FactCube.shape_groupRecords h.wellFormed h.left,
    FactCube.shape_groupRecords h.wellFormed h.right, h.shape_foldRecords]

/-- With an exact addition, the groups depend neither on the order of the facts nor on the
workers. -/
theorem SameFacts.toList_groupRecords (h : SameFacts schema records other)
    (hexact : arith.IsExact) (plan : Plan) (workers workers' : Nat) :
    (groupRecords arith plan none workers records).toList =
      (groupRecords arith plan none workers' other).toList := by
  rw [FactCube.toList_groupRecords hexact h.wellFormed h.left,
    FactCube.toList_groupRecords hexact h.wellFormed h.right, h.toList_foldRecords hexact]

end Permuted

/-! ## Answers -/

/-- A row without the values of its sums. -/
def GroupRow.outline (row : GroupRow σ) : GroupRow Unit where
  keys := row.keys
  totals := row.totals.map fun _ => ()
  count := row.count

/-- The answer of a view without the values of its sums. -/
def ViewResult.outline (r : ViewResult σ) : ViewResult Unit where
  scope := r.scope
  name := r.name
  label := r.label
  breakdown := r.breakdown
  measures := r.measures
  rows := r.rows.map GroupRow.outline

theorem Arithmetic.length_resize (n : Nat) (sums : List σ) : (arith.resize n sums).length = n := by
  induction n generalizing sums with
  | zero => rfl
  | succ n ih =>
    cases sums with
    | nil => rw [resize, List.length_cons, ih]
    | cons sum sums => rw [resize, List.length_cons, ih]

/-- Groupings with the same keys and shapes make rows that differ in their sums only. -/
theorem outline_groupRows {n : Nat} {groups other : Groups σ}
    (h : groups.toList.map (Prod.map id Tally.shape) = other.toList.map (Prod.map id Tally.shape)) :
    (groupRows arith n groups).map GroupRow.outline =
      (groupRows arith n other).map GroupRow.outline := by
  have hrows : ∀ g : Groups σ, (groupRows arith n g).map GroupRow.outline =
      (g.toList.map (Prod.map id Tally.shape)).map fun keyed =>
        ⟨keyed.1, List.replicate n (), keyed.2.1⟩ := by
    intro g
    rw [groupRows, List.map_map, List.map_map]
    apply List.map_congr_left
    rintro ⟨keys, t⟩ -
    simp only [Function.comp_apply, GroupRow.outline, Prod.map_apply, id_eq, Tally.shape,
      List.map_const', Arithmetic.length_resize]
  rw [hrows, hrows, h]

section Answers

variable {schema : Schema} {store other : Store}

/-- What a view answers, given the groups of its plan. -/
def View.answer (arith : Arithmetic σ) (schema : Schema) (view : View) (plan : Plan)
    (groups : Groups σ) : ViewResult σ where
  scope := view.scope
  name := view.name
  label := view.label
  breakdown := view.breakdownName
  measures := plan.measureNames
  rows := if scopeMatches schema view then groupRows arith plan.measures.length groups else []

theorem Store.viewWith_eq (store : Store) (workers : Nat) (entity name : String)
    (dimension? member? : Option String) :
    store.viewWith arith schema workers entity name dimension? member? =
      match schema.view? entity name dimension? with
      | none => .error (.notFound entity name)
      | some view => (view.plan schema member?).map fun plan =>
        view.answer arith schema plan (groupRecords arith plan none workers store.toList) := by
  rw [viewWith]
  cases schema.view? entity name dimension? with
  | none => rfl
  | some view => cases hplan : view.plan schema member? <;> simp only [hplan] <;> rfl

theorem outline_answer (view : View) {plan : Plan} {groups other : Groups σ}
    (h : groups.toList.map (Prod.map id Tally.shape) = other.toList.map (Prod.map id Tally.shape)) :
    (view.answer arith schema plan groups).outline =
      (view.answer arith schema plan other).outline := by
  rw [View.answer, View.answer, ViewResult.outline, ViewResult.outline]
  split
  · rw [outline_groupRows h]
  · rfl

theorem answer_congr (view : View) {plan : Plan} {groups other : Groups σ}
    (h : groups.toList = other.toList) :
    view.answer arith schema plan groups = view.answer arith schema plan other := by
  simp only [View.answer, groupRows, h]

/-- Views of two stores with the same contents in some order differ in their sums only. -/
theorem SameFacts.outline_viewWith (h : SameFacts schema store.toList other.toList)
    (workers workers' : Nat) (entity name : String) (dimension? member? : Option String) :
    (store.viewWith arith schema workers entity name dimension? member?).map ViewResult.outline =
      (other.viewWith arith schema workers' entity name dimension? member?).map
        ViewResult.outline := by
  rw [Store.viewWith_eq, Store.viewWith_eq]
  cases schema.view? entity name dimension? with
  | none => rfl
  | some view =>
    simp only [Outcome.map_map]
    congr 1
    funext plan
    exact outline_answer view (h.shape_groupRecords plan _ _)

/-- With an exact addition, views of two stores with the same contents in some order agree. -/
theorem SameFacts.viewWith_eq (h : SameFacts schema store.toList other.toList)
    (hexact : arith.IsExact) (workers workers' : Nat) (entity name : String)
    (dimension? member? : Option String) :
    store.viewWith arith schema workers entity name dimension? member? =
      other.viewWith arith schema workers' entity name dimension? member? := by
  rw [Store.viewWith_eq, Store.viewWith_eq]
  cases schema.view? entity name dimension? with
  | none => rfl
  | some view =>
    show Except.map _ _ = Except.map _ _
    congr 1
    funext plan
    exact answer_congr view (h.toList_groupRecords hexact plan _ _)

/-- With an exact addition, queries without a collection have the same answers over two stores with
the same contents in some order. -/
theorem SameFacts.aggregateWith_eq (h : SameFacts schema store.toList other.toList)
    (hexact : arith.IsExact) (workers workers' : Nat) {query : Query}
    (hquery : query.collection? = none) :
    store.aggregateWith arith schema workers query =
      other.aggregateWith arith schema workers' query := by
  cases hplan : query.plan schema with
  | error fault => simp only [Store.aggregateWith, hplan]; rfl
  | ok plan =>
    have hnone : plan.collection? = none := by
      rw [(Query.resolved_of_plan hplan).collection?, hquery]
    have hanswer : ∀ (s : Store) (n : Nat), s.aggregateWith arith schema n query =
        .ok (.ofGroups arith plan (groupRecords arith plan none n s.toList)) := by
      intro s n
      have hmembers : s.membersFor plan = .ok none := by rw [Store.membersFor, hnone]
      rw [Store.aggregateWith, hplan]
      show (s.membersFor plan >>= _) = _
      rw [hmembers]
      rfl
    rw [hanswer, hanswer,
      Aggregate.ofGroups_congr (h.toList_groupRecords hexact plan workers workers')]

end Answers

/-! ## Loads of the same rows -/

/-- Whether two stores answer alike: all groups and all views differ in their sums only, and with an
exact addition all views agree and so do all queries without a collection. -/
structure SameAnswers (schema : Schema) (store other : Store) : Prop where
  groups : ∀ {σ : Type} (arith : Arithmetic σ) (plan : Plan) (workers workers' : Nat),
    (groupRows arith plan.measures.length
        (groupRecords arith plan none workers store.toList)).map GroupRow.outline =
      (groupRows arith plan.measures.length
        (groupRecords arith plan none workers' other.toList)).map GroupRow.outline
  views : ∀ {σ : Type} (arith : Arithmetic σ) (workers workers' : Nat) (entity name : String)
    (dimension? member? : Option String),
    (store.viewWith arith schema workers entity name dimension? member?).map ViewResult.outline =
      (other.viewWith arith schema workers' entity name dimension? member?).map ViewResult.outline
  exact_views : ∀ {σ : Type} {arith : Arithmetic σ}, arith.IsExact →
    ∀ (workers workers' : Nat) (entity name : String) (dimension? member? : Option String),
      store.viewWith arith schema workers entity name dimension? member? =
        other.viewWith arith schema workers' entity name dimension? member?
  exact_queries : ∀ {σ : Type} {arith : Arithmetic σ}, arith.IsExact →
    ∀ (workers workers' : Nat) {query : Query}, query.collection? = none →
      store.aggregateWith arith schema workers query =
        other.aggregateWith arith schema workers' query

theorem SameFacts.sameAnswers {schema : Schema} {store other : Store}
    (h : SameFacts schema store.toList other.toList) : SameAnswers schema store other where
  groups _ plan workers workers' := outline_groupRows (h.shape_groupRecords plan workers workers')
  views _ := h.outline_viewWith
  exact_views hexact := h.viewWith_eq hexact
  exact_queries hexact _ _ _ := h.aggregateWith_eq hexact _ _

/-- What is stored with the contents of mapped records is a fact. -/
theorem isFact_of_contents {schema : Schema} {rows : List Row} {records : List Record}
    (h : MapsTo schema rows records) {stored : List Record}
    (hcontents : stored.map Record.contents = records.map Record.contents) :
    ∀ record ∈ stored, schema.IsFact record := by
  intro record hrecord
  have hmem : record.contents ∈ records.map Record.contents := by
    rw [← hcontents]
    exact List.mem_map_of_mem hrecord
  obtain ⟨mapped, hmapped, heq⟩ := List.mem_map.1 hmem
  rw [h.eq_filterMap] at hmapped
  obtain ⟨row, -, hrow⟩ := mem_mappedFacts.1 hmapped
  exact ⟨row, mapped, hrow, heq.symm⟩

/-- Rows that can all be mapped, to records that keep apart, are loaded in any order, and the two
stores answer alike. -/
theorem loadRows_perm {doc : Document} {schema : Schema} (hvalid : doc.validate = .ok schema)
    {rows rows' : List Row} (hperm : rows.Perm rows') {records records' : List Record}
    (hrecords : MapsTo schema rows records) (hrecords' : MapsTo schema rows' records')
    (hapart : KeepsApart schema records)
    (hfree : schema.keys = [] → Sha256.IsCollisionFree (ordinalMessages 0 records'))
    (mode : LoadMode) (workers workers' : Nat) :
    ∃ report store report' store',
      (loadRows schema mode workers rows).run Store.empty = (.ok report, store) ∧
      (loadRows schema mode workers' rows').run Store.empty = (.ok report', store') ∧
      SameAnswers schema store store' := by
  have hrecordsPerm : records.Perm records' := by
    rw [hrecords.eq_filterMap, hrecords'.eq_filterMap]
    exact hperm.filterMap _
  have hapart' : KeepsApart schema records' := by
    constructor
    · intro hkeys
      exact (hrecordsPerm.map Record.id).nodup_iff.1 (hapart.keyed hkeys)
    · intro hkeys
      rw [← hrecordsPerm.length_eq]
      exact ⟨(hapart.keyless hkeys).1, hfree hkeys⟩
  obtain ⟨report, store, hrun, hstore⟩ := loadRows_empty hrecords hapart mode workers
  obtain ⟨report', store', hrun', hstore'⟩ := loadRows_empty hrecords' hapart' mode workers'
  refine ⟨report, store, report', store', hrun, hrun', ?_⟩
  apply SameFacts.sameAnswers
  refine ⟨Document.wellFormed_of_validate hvalid, isFact_of_contents hrecords hstore,
    isFact_of_contents hrecords' hstore', ?_⟩
  rw [hstore, hstore']
  exact hrecordsPerm.map _

namespace Sample

theorem mapsTo_pair (keyed : Bool) {ref ref' : String} (href : ref.isEmpty = false)
    (href' : ref'.isEmpty = false) :
    MapsTo (schema keyed) [row ref "North" "5", row ref' "North" "5"]
      [fact keyed ref "North" 5, fact keyed ref' "North" 5] :=
  .cons (mapRow_row keyed href rfl rfl rfl) (.cons (mapRow_row keyed href' rfl rfl rfl) .nil)

theorem keepsApart_keyed :
    KeepsApart (schema true) [fact true "a" "North" 5, fact true "b" "North" 5] where
  keyed _ := by decide +kernel
  keyless h := nomatch (show (0, _) :: _ = [] from h)

theorem isCollisionFree_twins : Sha256.IsCollisionFree
    (ordinalMessages 0 [fact false "a" "North" 5, fact false "a" "North" 5]) :=
  Sha256.isCollisionFree_pair (by decide +kernel)

theorem keepsApart_keyless :
    KeepsApart (schema false) [fact false "a" "North" 5, fact false "a" "North" 5] where
  keyed h := absurd rfl h
  keyless _ := ⟨by decide, isCollisionFree_twins⟩

end Sample

/-- With a key two rows are loaded in either order, and without one even equal rows are kept
apart. -/
theorem loadRows_perm_sample :
    (∃ report store report' store',
      (loadRows (Sample.schema true) .strict 1
          [Sample.row "a" "North" "5", Sample.row "b" "North" "5"]).run Store.empty =
        (.ok report, store) ∧
      (loadRows (Sample.schema true) .strict 4
          [Sample.row "b" "North" "5", Sample.row "a" "North" "5"]).run Store.empty =
        (.ok report', store') ∧
      SameAnswers (Sample.schema true) store store') ∧
    ∃ report store report' store',
      (loadRows (Sample.schema false) .strict 1
          [Sample.row "a" "North" "5", Sample.row "a" "North" "5"]).run Store.empty =
        (.ok report, store) ∧
      (loadRows (Sample.schema false) .strict 4
          [Sample.row "a" "North" "5", Sample.row "a" "North" "5"]).run Store.empty =
        (.ok report', store') ∧
      SameAnswers (Sample.schema false) store store' :=
  ⟨loadRows_perm (Sample.validate true) (.swap _ _ _) (Sample.mapsTo_pair true rfl rfl)
      (Sample.mapsTo_pair true rfl rfl) Sample.keepsApart_keyed
      (fun h => nomatch (show (0, _) :: _ = [] from h)) .strict 1 4,
    loadRows_perm (Sample.validate false) (.refl _) (Sample.mapsTo_pair false rfl rfl)
      (Sample.mapsTo_pair false rfl rfl) Sample.keepsApart_keyless
      (fun _ => Sample.isCollisionFree_twins) .strict 1 4⟩

end FactCube
