import FactCube.Proofs.Acceptance

/-!
# Levels of taxonomies

The classifiers of a taxonomy stand on levels. Some declare theirs; the others take, one after the
other, the least level that is free. What is free for a classifier depends on the declared levels
and on those given before it, so the levels are described by what is taken at each position, and
the search for a free one is bounded by the number of levels that are taken.

Results:
* `Validation.isLeast_freeLevel`, `exists_freeLevel_eq`: the search ends, with the least free level.
* `Validation.isLeast_of_mem_assignLevels`: what a run over several classifiers gives each of them.
* `Validation.isFilled_of_mem`: the levels of a taxonomy, declared and filled in.
* `Validation.nodup_entries`, `exists_entry_iff`: every classifier has one entry, in its taxonomy.
-/

namespace FactCube

/-! ## Filled taxonomies -/

/-- Whether a level of a taxonomy is declared, or given to a classifier before some position. -/
inductive Taxonomy.Takes (declared? : Nat → Option Nat) (t : Taxonomy) (position level : Nat) : Prop
  | declared {entry : TaxonomyLevel} : entry ∈ t.levels →
    declared? entry.dimension = some level → Takes declared? t position level
  | given {entry : TaxonomyLevel} : entry ∈ t.levels → declared? entry.dimension = none →
    entry.dimension < position → entry.level = level → Takes declared? t position level

/-- Whether the levels of a taxonomy ascend, are those its classifiers declare, and fill the gaps
in order where nothing is declared. -/
structure Taxonomy.IsFilled (declared? : Nat → Option Nat) (t : Taxonomy) : Prop where
  ascending : t.levels.Pairwise fun a b => a.level < b.level
  declared : ∀ entry ∈ t.levels, ∀ level, declared? entry.dimension = some level →
    entry.level = level
  filled : ∀ entry ∈ t.levels, declared? entry.dimension = none →
    IsLeast {level | 1 ≤ level ∧ ¬ t.Takes declared? entry.dimension level} entry.level
  bounded : ∀ entry ∈ t.levels, declared? entry.dimension = none →
    entry.level ≤ t.levels.length

namespace Validation

/-! ## Free levels -/

/-- Of one more candidates than there are taken levels, one is free. -/
theorem exists_free (taken : List Nat) : ∃ i, i < taken.length + 1 ∧ i + 1 ∉ taken := by
  by_contra hall
  have hsubset : (List.range (taken.length + 1)).map (· + 1) ⊆ taken := by
    intro level hlevel
    obtain ⟨i, hi, rfl⟩ := List.mem_map.1 hlevel
    by_contra hfree
    exact hall ⟨i, List.mem_range.1 hi, hfree⟩
  have hnodup : ((List.range (taken.length + 1)).map (· + 1)).Nodup :=
    List.nodup_range.map (add_left_injective 1)
  have hlength := (hnodup.subperm hsubset).length_le
  rw [List.length_map, List.length_range] at hlength
  omega

/-- The search for a free level ends after at most one more candidate than levels are taken. -/
theorem exists_freeLevel_eq (taken : List Nat) :
    ∃ i, freeLevel taken = i + 1 ∧ i < taken.length + 1 ∧ i + 1 ∉ taken ∧
      ∀ j < i, j + 1 ∈ taken := by
  rw [freeLevel, List.find?_map]
  cases hfound : (List.range (taken.length + 1)).find?
      ((fun level => !taken.contains level) ∘ (· + 1)) with
  | none =>
    obtain ⟨i, hi, hfree⟩ := exists_free taken
    have hno := List.find?_eq_none.1 hfound i (List.mem_range.2 hi)
    simp [hfree] at hno
  | some i =>
    obtain ⟨hfree, hi, hleast⟩ := List.find?_range_eq_some.1 hfound
    refine ⟨i, rfl, List.mem_range.1 hi, by simpa using hfree, fun j hj => ?_⟩
    simpa using hleast j hj

/-- The free level is the least one from 1 on that is not taken. -/
theorem isLeast_freeLevel (taken : List Nat) :
    IsLeast {level | 1 ≤ level ∧ level ∉ taken} (freeLevel taken) := by
  obtain ⟨i, heq, -, hfree, hleast⟩ := exists_freeLevel_eq taken
  rw [heq]
  refine ⟨⟨Nat.le_add_left 1 i, hfree⟩, fun level hlevel => ?_⟩
  obtain ⟨hpos, hnot⟩ := hlevel
  by_contra hlt
  obtain ⟨j, rfl⟩ := Nat.exists_eq_add_of_le' hpos
  exact hnot (hleast j (by omega))

theorem freeLevel_not_mem (taken : List Nat) : freeLevel taken ∉ taken :=
  (isLeast_freeLevel taken).1.2

theorem freeLevel_le (taken : List Nat) : freeLevel taken ≤ taken.length + 1 := by
  obtain ⟨i, heq, hlt, -⟩ := exists_freeLevel_eq taken
  omega

/-! ## Assigned levels -/

theorem map_dimension_assignLevels (taken indices : List Nat) :
    (assignLevels taken indices).map TaxonomyLevel.dimension = indices := by
  induction indices generalizing taken with
  | nil => rfl
  | cons index rest ih => rw [assignLevels, List.map_cons, ih]

/-- Assigned levels are new and distinct. -/
theorem nodup_append_assignLevels {taken : List Nat} (h : taken.Nodup) (indices : List Nat) :
    (taken ++ (assignLevels taken indices).map TaxonomyLevel.level).Nodup := by
  induction indices generalizing taken with
  | nil => simpa [assignLevels] using h
  | cons index rest ih =>
    have htail := ih (List.nodup_cons.2 ⟨freeLevel_not_mem taken, h⟩)
    rw [assignLevels, List.map_cons]
    exact (List.perm_middle.nodup_iff).2 htail

/-- No assigned level exceeds the number of levels that are taken in the end. -/
theorem le_of_mem_assignLevels {taken indices : List Nat} {entry : TaxonomyLevel}
    (h : entry ∈ assignLevels taken indices) : entry.level ≤ taken.length + indices.length := by
  induction indices generalizing taken with
  | nil => cases h
  | cons index rest ih =>
    rw [assignLevels] at h
    rw [List.length_cons]
    rcases List.mem_cons.1 h with rfl | h
    · have := freeLevel_le taken
      show freeLevel taken ≤ _
      omega
    · have := ih h
      rw [List.length_cons] at this
      omega

/-- Each position is assigned the least level that is neither taken nor assigned to a position before
it. -/
theorem isLeast_of_mem_assignLevels {taken indices : List Nat} (hsorted : indices.Pairwise (· < ·))
    {entry : TaxonomyLevel} (h : entry ∈ assignLevels taken indices) :
    IsLeast {level | 1 ≤ level ∧ level ∉ taken ∧ ∀ earlier ∈ assignLevels taken indices,
      earlier.dimension < entry.dimension → earlier.level ≠ level} entry.level := by
  induction indices generalizing taken with
  | nil => cases h
  | cons index rest ih =>
    obtain ⟨hfirst, hrest⟩ := List.pairwise_cons.1 hsorted
    have hafter : ∀ other ∈ assignLevels (freeLevel taken :: taken) rest,
        index < other.dimension := by
      intro other hother
      refine hfirst _ ?_
      rw [← map_dimension_assignLevels (freeLevel taken :: taken) rest]
      exact List.mem_map_of_mem hother
    rw [assignLevels] at h ⊢
    rcases List.mem_cons.1 h with rfl | h
    · -- nothing is assigned before the first position
      have hset : {level | 1 ≤ level ∧ level ∉ taken ∧
          ∀ earlier ∈ ⟨freeLevel taken, index⟩ :: assignLevels (freeLevel taken :: taken) rest,
            earlier.dimension < index → earlier.level ≠ level} =
          {level | 1 ≤ level ∧ level ∉ taken} := by
        ext level
        refine and_congr_right fun _ => and_iff_left_of_imp fun _ earlier hearlier hlt => ?_
        rcases List.mem_cons.1 hearlier with rfl | hearlier
        · exact absurd hlt (lt_irrefl index)
        · exact absurd hlt (hafter earlier hearlier).not_gt
      rw [hset]
      exact isLeast_freeLevel taken
    · have hset : {level | 1 ≤ level ∧ level ∉ taken ∧
          ∀ earlier ∈ ⟨freeLevel taken, index⟩ :: assignLevels (freeLevel taken :: taken) rest,
            earlier.dimension < entry.dimension → earlier.level ≠ level} =
          {level | 1 ≤ level ∧ level ∉ freeLevel taken :: taken ∧
            ∀ earlier ∈ assignLevels (freeLevel taken :: taken) rest,
              earlier.dimension < entry.dimension → earlier.level ≠ level} := by
        ext level
        have hindex : index < entry.dimension := hafter entry h
        rw [Set.mem_ofPred_eq, Set.mem_ofPred_eq, List.forall_mem_cons, List.mem_cons,
          eq_comm (a := level)]
        tauto
      rw [hset]
      exact ih hrest h

/-! ## Levels of one taxonomy -/

theorem mem_sortLevels {levels : List TaxonomyLevel} {entry : TaxonomyLevel} :
    entry ∈ sortLevels levels ↔ entry ∈ levels :=
  (List.mergeSort_perm _ _).mem_iff

theorem mem_declaredLevels {classifiers : List (Nat × Dimension)} {entry : TaxonomyLevel} :
    entry ∈ declaredLevels classifiers ↔
      ∃ d, (entry.dimension, d) ∈ classifiers ∧ d.level? = some entry.level := by
  obtain ⟨level, index⟩ := entry
  rw [declaredLevels, mem_sortLevels, List.mem_filterMap]
  constructor
  · rintro ⟨⟨i, d⟩, hmem, heq⟩
    obtain ⟨_, hlevel, heq⟩ := Option.map_eq_some_iff.1 heq
    cases heq
    exact ⟨d, hmem, hlevel⟩
  · rintro ⟨d, hmem, hlevel⟩
    exact ⟨(index, d), hmem, Option.map_eq_some_iff.2 ⟨level, hlevel, rfl⟩⟩

/-- The positions of the classifiers that declare no level. -/
def undeclared (classifiers : List (Nat × Dimension)) : List Nat :=
  (classifiers.filter fun (_, d) => d.level?.isNone).map Prod.fst

theorem mem_taxonomyFrom {name : String} {classifiers : List (Nat × Dimension)}
    {entry : TaxonomyLevel} :
    entry ∈ (taxonomyFrom name classifiers).levels ↔ entry ∈ declaredLevels classifiers ∨
      entry ∈ assignLevels ((declaredLevels classifiers).map TaxonomyLevel.level)
        (undeclared classifiers) := by
  rw [taxonomyFrom, mem_sortLevels, List.mem_append]
  rfl

/-- Every classifier of a taxonomy has one entry. -/
theorem dimensions_taxonomyFrom (name : String) (classifiers : List (Nat × Dimension)) :
    ((taxonomyFrom name classifiers).levels.map TaxonomyLevel.dimension).Perm
      (classifiers.map Prod.fst) := by
  have hdeclared : ((declaredLevels classifiers).map TaxonomyLevel.dimension).Perm
      ((classifiers.filter fun placed => !placed.2.level?.isNone).map Prod.fst) := by
    refine ((List.mergeSort_perm _ _).map _).trans (.of_eq ?_)
    rw [List.map_filterMap, ← List.filterMap_eq_map, List.filterMap_filter]
    refine List.filterMap_congr fun placed _ => ?_
    obtain ⟨index, d⟩ := placed
    cases hlevel : d.level? <;> simp [hlevel]
  have hsplit := List.filter_append_perm (fun placed : Nat × Dimension => placed.2.level?.isNone)
    classifiers
  have hlevels : ((taxonomyFrom name classifiers).levels.map TaxonomyLevel.dimension).Perm
      ((declaredLevels classifiers).map TaxonomyLevel.dimension ++ undeclared classifiers) := by
    refine ((List.mergeSort_perm _ _).map _).trans (.of_eq ?_)
    rw [List.map_append, map_dimension_assignLevels]
    rfl
  refine hlevels.trans ((hdeclared.append_right _).trans (List.perm_append_comm.trans ?_))
  rw [undeclared, ← List.map_append]
  exact hsplit.map _

/-- The levels of a taxonomy strictly ascend, as the declared ones are distinct. -/
theorem pairwise_taxonomyFrom (name : String) {classifiers : List (Nat × Dimension)}
    (h : ((declaredLevels classifiers).map TaxonomyLevel.level).Nodup) :
    (taxonomyFrom name classifiers).levels.Pairwise fun a b => a.level < b.level := by
  have hnodup : ((taxonomyFrom name classifiers).levels.map TaxonomyLevel.level).Nodup := by
    refine (((List.mergeSort_perm _ _).map _).nodup_iff).2 ?_
    rw [List.map_append]
    exact nodup_append_assignLevels h _
  have hsorted : (taxonomyFrom name classifiers).levels.Pairwise fun a b => a.level ≤ b.level := by
    refine (List.pairwise_mergeSort (fun a b c hab hbc => ?_) (fun a b => ?_) _).imp fun hle => ?_
    · exact decide_eq_true ((of_decide_eq_true hab).trans (of_decide_eq_true hbc))
    · simpa using le_total a.level b.level
    · exact of_decide_eq_true hle
  rw [List.Nodup, List.pairwise_map] at hnodup
  exact hsorted.imp₂ (fun _ _ hle hne => lt_of_le_of_ne hle hne) hnodup

section

variable {name : String} {classifiers : List (Nat × Dimension)} {declared? : Nat → Option Nat}

theorem declared_of_mem_declaredLevels
    (hdeclared : ∀ placed ∈ classifiers, placed.2.level? = declared? placed.1)
    {entry : TaxonomyLevel} (h : entry ∈ declaredLevels classifiers) :
    declared? entry.dimension = some entry.level := by
  obtain ⟨d, hmem, hlevel⟩ := mem_declaredLevels.1 h
  rw [← hdeclared _ hmem, hlevel]

theorem declared_of_mem_assignLevels
    (hdeclared : ∀ placed ∈ classifiers, placed.2.level? = declared? placed.1)
    {taken : List Nat} {entry : TaxonomyLevel}
    (h : entry ∈ assignLevels taken (undeclared classifiers)) :
    declared? entry.dimension = none := by
  have hmem : entry.dimension ∈ undeclared classifiers := by
    rw [← map_dimension_assignLevels taken (undeclared classifiers)]
    exact List.mem_map_of_mem h
  obtain ⟨placed, hplaced, hindex⟩ := List.mem_map.1 hmem
  obtain ⟨hplaced, hnone⟩ := List.mem_filter.1 hplaced
  rw [← hindex, ← hdeclared placed hplaced]
  exact Option.isNone_iff_eq_none.1 hnone

/-- A level is taken iff it is among the declared ones or assigned to a position before. -/
theorem takes_taxonomyFrom_iff
    (hdeclared : ∀ placed ∈ classifiers, placed.2.level? = declared? placed.1)
    {position level : Nat} :
    (taxonomyFrom name classifiers).Takes declared? position level ↔
      level ∈ (declaredLevels classifiers).map TaxonomyLevel.level ∨
        ∃ earlier ∈ assignLevels ((declaredLevels classifiers).map TaxonomyLevel.level)
          (undeclared classifiers), earlier.dimension < position ∧ earlier.level = level := by
  constructor
  · rintro (⟨hmem, hlevel⟩ | ⟨hmem, hnone, hlt, heq⟩)
    · rcases mem_taxonomyFrom.1 hmem with hmem | hmem
      · rw [declared_of_mem_declaredLevels hdeclared hmem, Option.some.injEq] at hlevel
        exact .inl (List.mem_map.2 ⟨_, hmem, hlevel⟩)
      · rw [declared_of_mem_assignLevels hdeclared hmem] at hlevel
        cases hlevel
    · rcases mem_taxonomyFrom.1 hmem with hmem | hmem
      · rw [declared_of_mem_declaredLevels hdeclared hmem] at hnone
        cases hnone
      · exact .inr ⟨_, hmem, hlt, heq⟩
  · rintro (hlevel | ⟨earlier, hmem, hlt, heq⟩)
    · obtain ⟨entry, hmem, rfl⟩ := List.mem_map.1 hlevel
      exact .declared (mem_taxonomyFrom.2 (.inl hmem))
        (declared_of_mem_declaredLevels hdeclared hmem)
    · exact .given (mem_taxonomyFrom.2 (.inr hmem))
        (declared_of_mem_assignLevels hdeclared hmem) hlt heq

/-- The levels of classifiers with distinct declared levels, taken in order. -/
theorem isFilled_taxonomyFrom (hsorted : (classifiers.map Prod.fst).Pairwise (· < ·))
    (hdeclared : ∀ placed ∈ classifiers, placed.2.level? = declared? placed.1)
    (hdistinct : ((declaredLevels classifiers).map TaxonomyLevel.level).Nodup) :
    (taxonomyFrom name classifiers).IsFilled declared? := by
  have hassigned : ∀ entry ∈ (taxonomyFrom name classifiers).levels,
      declared? entry.dimension = none →
      entry ∈ assignLevels ((declaredLevels classifiers).map TaxonomyLevel.level)
        (undeclared classifiers) := by
    intro entry hentry hnone
    rcases mem_taxonomyFrom.1 hentry with hmem | hmem
    · rw [declared_of_mem_declaredLevels hdeclared hmem] at hnone
      cases hnone
    · exact hmem
  refine ⟨pairwise_taxonomyFrom name hdistinct, ?_, ?_, ?_⟩
  · intro entry hentry level hlevel
    rcases mem_taxonomyFrom.1 hentry with hmem | hmem
    · rw [declared_of_mem_declaredLevels hdeclared hmem] at hlevel
      exact Option.some.inj hlevel
    · rw [declared_of_mem_assignLevels hdeclared hmem] at hlevel
      cases hlevel
  · intro entry hentry hnone
    have hsubset : (undeclared classifiers).Pairwise (· < ·) :=
      hsorted.sublist (List.filter_sublist.map _)
    have hleast := isLeast_of_mem_assignLevels hsubset (hassigned entry hentry hnone)
    simpa only [takes_taxonomyFrom_iff hdeclared, not_or, not_exists, not_and] using hleast
  · intro entry hentry hnone
    have hle := le_of_mem_assignLevels (hassigned entry hentry hnone)
    have hlength : (taxonomyFrom name classifiers).levels.length =
        (declaredLevels classifiers).length + (undeclared classifiers).length := by
      have hassign := congrArg List.length (map_dimension_assignLevels
        ((declaredLevels classifiers).map TaxonomyLevel.level) (undeclared classifiers))
      rw [List.length_map] at hassign
      rw [taxonomyFrom, sortLevels, List.length_mergeSort, List.length_append, ← hassign]
      rfl
    rw [List.length_map] at hle
    omega

end

/-! ## Taxonomies of dimensions -/

section

variable {dimensions : List Dimension}

theorem mem_classifiersOf {taxonomy : String} {placed : Nat × Dimension} :
    placed ∈ classifiersOf dimensions taxonomy ↔ dimensions[placed.1]? = some placed.2 ∧
      placed.2.kind = .classifier ∧ placed.2.taxonomy? = some taxonomy := by
  obtain ⟨index, d⟩ := placed
  simp only [classifiersOf, List.mem_filter, List.mem_map, Prod.exists, Prod.mk.injEq,
    List.mem_zipIdx_iff_getElem?, Bool.and_eq_true, beq_iff_eq]
  constructor
  · rintro ⟨⟨_, _, hd, rfl, rfl⟩, hclassifier⟩
    exact ⟨hd, hclassifier⟩
  · rintro ⟨hd, hclassifier⟩
    exact ⟨⟨d, index, hd, rfl, rfl⟩, hclassifier⟩

theorem pairwise_classifiersOf (dimensions : List Dimension) (taxonomy : String) :
    ((classifiersOf dimensions taxonomy).map Prod.fst).Pairwise (· < ·) := by
  have hall : ((dimensions.zipIdx.map Prod.swap).map Prod.fst).Pairwise (· < ·) := by
    rw [List.map_map]
    show (dimensions.zipIdx.map Prod.snd).Pairwise (· < ·)
    rw [List.zipIdx_map_snd]
    exact List.pairwise_lt_range'
  exact hall.sublist (List.filter_sublist.map _)

/-- Taxonomies are named once, in spite of names that were seen before. -/
theorem nodup_taxonomyNames (seen : List String) (dimensions : List Dimension) :
    (taxonomyNames seen dimensions).Nodup ∧ ∀ name ∈ taxonomyNames seen dimensions, name ∉ seen := by
  induction dimensions generalizing seen with
  | nil => simp [taxonomyNames]
  | cons d dimensions ih =>
    rw [taxonomyNames]
    split
    · rename_i name _ _
      split
      · exact ih seen
      · rename_i hnew
        obtain ⟨hnodup, hfresh⟩ := ih (name :: seen)
        refine ⟨List.nodup_cons.2 ⟨fun hmem => hfresh name hmem List.mem_cons_self, hnodup⟩, ?_⟩
        refine List.forall_mem_cons.2 ⟨by simpa using hnew, fun other hother hseen => ?_⟩
        exact hfresh other hother (List.mem_cons_of_mem _ hseen)
    · exact ih seen

theorem map_name_taxonomies (dimensions : List Dimension) :
    (taxonomies dimensions).map Taxonomy.name = taxonomyNames [] dimensions := by
  rw [taxonomies, List.map_map]
  exact List.map_id _

/-- A taxonomy has an entry for exactly the classifiers that belong to it. -/
theorem exists_entry_iff {taxonomy : Taxonomy} (h : taxonomy ∈ taxonomies dimensions)
    {index : Nat} :
    (∃ entry ∈ taxonomy.levels, entry.dimension = index) ↔
      ∃ d, dimensions[index]? = some d ∧ d.kind = .classifier ∧
        d.taxonomy? = some taxonomy.name := by
  obtain ⟨name, -, rfl⟩ := List.mem_map.1 h
  rw [← List.mem_map, (dimensions_taxonomyFrom name _).mem_iff, List.mem_map]
  simp only [Prod.exists, mem_classifiersOf]
  constructor
  · rintro ⟨_, d, hclassifier, rfl⟩
    exact ⟨d, hclassifier⟩
  · rintro ⟨d, hclassifier⟩
    exact ⟨index, d, hclassifier, rfl⟩

/-- No dimension has two entries. -/
theorem nodup_entries (dimensions : List Dimension) :
    (((taxonomies dimensions).flatMap Taxonomy.levels).map TaxonomyLevel.dimension).Nodup := by
  have hnames : ((taxonomies dimensions).map Taxonomy.name).Nodup := by
    rw [map_name_taxonomies]
    exact (nodup_taxonomyNames [] dimensions).1
  rw [List.map_flatMap, List.nodup_flatMap]
  constructor
  · intro taxonomy h
    obtain ⟨name, -, rfl⟩ := List.mem_map.1 h
    rw [(dimensions_taxonomyFrom name _).nodup_iff]
    exact (pairwise_classifiersOf dimensions name).imp fun hlt => hlt.ne
  · refine List.Pairwise.imp_of_mem ?_ (List.pairwise_map.1 hnames)
    intro a b ha hb hne index hin hin'
    obtain ⟨d, hd, -, hname⟩ := (exists_entry_iff ha).1 (List.mem_map.1 hin)
    obtain ⟨d', hd', -, hname'⟩ := (exists_entry_iff hb).1 (List.mem_map.1 hin')
    obtain rfl := Option.some.inj (hd.symm.trans hd')
    exact hne (Option.some.inj (hname.symm.trans hname'))

/-- The level of a dimension is that of its entry. -/
theorem levelIn?_of_mem {taxonomy : Taxonomy} (h : taxonomy ∈ taxonomies dimensions)
    {entry : TaxonomyLevel} (hentry : entry ∈ taxonomy.levels) :
    levelIn? (taxonomies dimensions) entry.dimension = some entry.level := by
  have hmem : entry ∈ (taxonomies dimensions).flatMap Taxonomy.levels :=
    List.mem_flatMap.2 ⟨taxonomy, h, hentry⟩
  rw [levelIn?]
  cases hfound : ((taxonomies dimensions).flatMap Taxonomy.levels).find? fun l =>
      l.dimension == entry.dimension with
  | none =>
    have hno := List.find?_eq_none.1 hfound entry hmem
    simp at hno
  | some found =>
    have hsame : found.dimension = entry.dimension := by simpa using List.find?_some hfound
    rw [List.inj_on_of_nodup_map (nodup_entries dimensions) (List.mem_of_find?_eq_some hfound) hmem
      hsame]
    rfl

/-- The dimension of an entry has its level. -/
theorem getElem?_withLevels_of_mem {taxonomy : Taxonomy} (h : taxonomy ∈ taxonomies dimensions)
    {entry : TaxonomyLevel} (hentry : entry ∈ taxonomy.levels) :
    ∃ d, (withLevels (taxonomies dimensions) dimensions)[entry.dimension]? = some d ∧
      d.kind = .classifier ∧ d.taxonomy? = some taxonomy.name ∧ d.level? = some entry.level := by
  obtain ⟨d, hd, hkind, hname⟩ := (exists_entry_iff h).1 ⟨entry, hentry, rfl⟩
  refine ⟨{ d with level? := some entry.level }, ?_, hkind, hname, rfl⟩
  rw [withLevels, List.getElem?_map, List.getElem?_zipIdx, hd]
  simp [hkind, levelIn?_of_mem h hentry]

/-- The levels of a taxonomy are filled if its classifiers declare distinct ones. -/
theorem isFilled_of_mem (hlevels : checkTaxonomies dimensions = []) {declared? : Nat → Option Nat}
    (hdeclared : ∀ index d, dimensions[index]? = some d → d.kind = .classifier →
      d.level? = declared? index)
    {taxonomy : Taxonomy} (h : taxonomy ∈ taxonomies dimensions) :
    taxonomy.IsFilled declared? := by
  obtain ⟨name, hname, rfl⟩ := List.mem_map.1 h
  refine isFilled_taxonomyFrom (pairwise_classifiersOf dimensions name) ?_ ?_
  · intro placed hplaced
    obtain ⟨hd, hkind, -⟩ := mem_classifiersOf.1 hplaced
    exact hdeclared _ _ hd hkind
  · exact checkLevels_eq_nil_iff.1 (List.flatMap_eq_nil_iff.1 hlevels name hname)

end

end Validation

/-! ## Taxonomies of a validated schema -/

namespace Document

variable {doc : Document} {schema : Schema}

/-- The taxonomies of a validated schema are those of its declared dimensions, which have them
written back. -/
theorem taxonomies_of_validate (h : doc.validate = .ok schema) :
    let declared := (Validation.checkDimensions [] doc.dimensions).dimensions
    schema.taxonomies = Validation.taxonomies declared ∧
      schema.dimensions = Validation.withLevels schema.taxonomies declared ∧
      Validation.checkTaxonomies declared = [] := by
  obtain ⟨rfl, hnone⟩ := Document.check_of_validate h
  have hparts := (List.append_eq_nil_iff.1 hnone).1
  exact ⟨rfl, rfl, (List.append_eq_nil_iff.1 hparts).2⟩

/-- The taxonomies of a validated schema have different names. -/
theorem nodup_taxonomies_of_validate (h : doc.validate = .ok schema) :
    (schema.taxonomies.map Taxonomy.name).Nodup := by
  rw [(taxonomies_of_validate h).1, Validation.map_name_taxonomies]
  exact (Validation.nodup_taxonomyNames [] _).1

/-- Every level of a validated schema is held by a classifier of its taxonomy, which has this
level. -/
theorem exists_classifier_of_validate (h : doc.validate = .ok schema) {taxonomy : Taxonomy}
    (htaxonomy : taxonomy ∈ schema.taxonomies) {entry : TaxonomyLevel}
    (hentry : entry ∈ taxonomy.levels) :
    ∃ d, schema.dimensions[entry.dimension]? = some d ∧ d.kind = .classifier ∧
      d.taxonomy? = some taxonomy.name ∧ d.level? = some entry.level := by
  obtain ⟨heq, hdimensions, -⟩ := taxonomies_of_validate h
  rw [heq] at htaxonomy hdimensions
  rw [hdimensions]
  exact Validation.getElem?_withLevels_of_mem htaxonomy hentry

/-- The dimensions of a validated schema are declared without violations, in order. -/
theorem forall₂_isDeclared_of_validate (h : doc.validate = .ok schema) :
    List.Forall₂ Validation.IsDeclared doc.dimensions
      (Validation.checkDimensions [] doc.dimensions).dimensions :=
  Validation.forall₂_checkDimensions (Document.accepted_of_validate h).declarations

/-- The level declared at a position. -/
def levelAt? (doc : Document) (index : Nat) : Option Nat :=
  doc.dimensions[index]?.bind fun entry => entry.2.level?.bind DimensionSpec.levelOf?

/-- The levels of a validated schema are the declared ones, with the gaps filled in order. -/
theorem isFilled_of_validate (h : doc.validate = .ok schema) {taxonomy : Taxonomy}
    (htaxonomy : taxonomy ∈ schema.taxonomies) : taxonomy.IsFilled doc.levelAt? := by
  obtain ⟨heq, -, hlevels⟩ := taxonomies_of_validate h
  rw [heq] at htaxonomy
  refine Validation.isFilled_of_mem hlevels (fun index d hd _ => ?_) htaxonomy
  obtain ⟨entry, hentry, hdeclared⟩ :=
    Validation.exists_getElem?_of_forall₂ (forall₂_isDeclared_of_validate h) hd
  rw [hdeclared.level_eq, levelAt?, hentry, Option.bind_some]

end Document

end FactCube
