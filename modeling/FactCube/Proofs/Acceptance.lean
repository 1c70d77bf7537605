import FactCube.Proofs.Rules

/-!
# Accepted documents

Validation accepts exactly the documents that keep the rules. The passes share what the first of
them builds, so the rules of later passes are compared with the document only where the dimensions
have no violations; if they have some, the document is rejected whatever the later passes say.

Results:
* `Validation.checkTaxonomies_eq_nil_iff`: the levels of classifiers are distinct.
* `Validation.checkViews_eq_nil_iff`: the views are sound and do not repeat each other.
* `Document.exists_validate_iff`: a document is accepted iff it keeps all rules.
* `not_forall_exists_validate_iff`: a document whose only fault is a view declared twice.
-/

namespace FactCube

namespace Validation

/-! ## Levels of taxonomies -/

theorem mem_eraseReps {α : Type} [BEq α] [LawfulBEq α] {x : α} {as : List α} :
    x ∈ as.eraseReps ↔ x ∈ as := by
  have hloop : ∀ (a : α) (as acc : List α),
      x ∈ List.eraseRepsBy.loop (· == ·) a as acc ↔ x = a ∨ x ∈ as ∨ x ∈ acc := by
    intro a as
    induction as generalizing a with
    | nil => simp [List.eraseRepsBy.loop, or_comm]
    | cons b as ih =>
      intro acc
      rw [List.eraseRepsBy.loop]
      split
      · rename_i heq
        rw [ih, List.mem_cons, eq_of_beq heq]
        tauto
      · rw [ih, List.mem_cons, List.mem_cons]
        tauto
  cases as with
  | nil => rfl
  | cons a as =>
    rw [List.eraseReps, List.eraseRepsBy, hloop, List.mem_cons]
    simp

/-- Nothing is found in the levels of a taxonomy iff they are distinct. -/
theorem checkLevels_eq_nil_iff {taxonomy : String} {dimensions : List Dimension}
    {levels : List TaxonomyLevel} :
    checkLevels taxonomy dimensions levels = [] ↔ (levels.map TaxonomyLevel.level).Nodup := by
  have hcount : ∀ level, (levels.filter fun l => l.level == level).length =
      (levels.map TaxonomyLevel.level).count level := by
    intro level
    rw [List.count_eq_countP, List.countP_map, List.countP_eq_length_filter]
    rfl
  simp only [checkLevels, List.flatMap_eq_nil_iff, mem_eraseReps, hcount,
    List.nodup_iff_count_le_one]
  constructor
  · intro h level
    by_cases hmem : level ∈ levels.map TaxonomyLevel.level
    · by_contra hmany
      have hnone := h level hmem
      rw [if_neg hmany] at hnone
      cases hnone
    · rw [List.count_eq_zero_of_not_mem hmem]
      omega
  · intro h level _
    rw [if_pos (h level)]

/-- The level that a classifier of a taxonomy declares. -/
def levelWithin (taxonomy : String) (d : Dimension) : Option Nat :=
  if d.kind == .classifier && d.taxonomy? == some taxonomy then d.level? else none

theorem map_level_declaredLevels (dimensions : List Dimension) (taxonomy : String) :
    ((declaredLevels (classifiersOf dimensions taxonomy)).map TaxonomyLevel.level).Perm
      (dimensions.filterMap (levelWithin taxonomy)) := by
  refine ((List.mergeSort_perm _ _).map _).trans (.of_eq ?_)
  conv_rhs => rw [← List.zipIdx_map_fst 0 dimensions]
  rw [classifiersOf, List.map_filterMap, List.filterMap_filter, List.filterMap_map,
    List.filterMap_map]
  refine List.filterMap_congr fun placed _ => ?_
  obtain ⟨d, index⟩ := placed
  simp only [Function.comp_apply, levelWithin]
  split
  · cases d.level? <;> rfl
  · rfl

/-- The taxonomy of a classifier is named, unless it was seen before. -/
theorem mem_taxonomyNames {dimensions : List Dimension} {d : Dimension} (hd : d ∈ dimensions)
    (hkind : d.kind = .classifier) {name : String} (hname : d.taxonomy? = some name)
    {seen : List String} (hseen : name ∉ seen) : name ∈ taxonomyNames seen dimensions := by
  induction dimensions generalizing seen with
  | nil => cases hd
  | cons first dimensions ih =>
    rw [taxonomyNames]
    rcases List.mem_cons.1 hd with rfl | hd
    · simp only [hkind, hname]
      rw [if_neg (by simpa using hseen)]
      exact List.mem_cons_self
    · split
      · rename_i other _ _
        split
        · exact ih hd hseen
        · by_cases hother : name = other
          · rw [hother]
            exact List.mem_cons_self
          · exact List.mem_cons_of_mem _ (ih hd (by simp [hother, hseen]))
      · exact ih hd hseen

theorem filterMap_levelWithin_eq_nil {dimensions : List Dimension} {taxonomy : String}
    (h : taxonomy ∉ taxonomyNames [] dimensions) :
    dimensions.filterMap (levelWithin taxonomy) = [] := by
  rw [List.filterMap_eq_nil_iff]
  intro d hd
  rw [levelWithin, if_neg]
  rw [Bool.and_eq_true, beq_iff_eq, beq_iff_eq]
  rintro ⟨hkind, hname⟩
  exact h (mem_taxonomyNames hd hkind hname List.not_mem_nil)

/-- The level that a classifier declares, with its taxonomy. -/
def leveled (d : Dimension) : Option (String × Nat) :=
  if d.kind == .classifier then
    d.taxonomy?.bind fun taxonomy => d.level?.map fun level => (taxonomy, level)
  else none

theorem leveled_eq_some_iff {d : Dimension} {taxonomy : String} {level : Nat} :
    leveled d = some (taxonomy, level) ↔ levelWithin taxonomy d = some level := by
  rw [leveled, levelWithin]
  cases d.kind == .classifier with
  | false => simp
  | true =>
    cases d.taxonomy? with
    | none => simp
    | some name =>
      simp only [if_true, Option.bind_some, Option.map_eq_some_iff, Prod.mk.injEq, Bool.true_and,
        beq_iff_eq, Option.some.injEq]
      split
      · rename_i heq
        simp [heq]
      · rename_i hne
        simp [hne]

/-- The pass over the taxonomies finds nothing iff no two classifiers of one taxonomy declare the
same level. -/
theorem checkTaxonomies_eq_nil_iff {dimensions : List Dimension} :
    checkTaxonomies dimensions = [] ↔ (dimensions.filterMap leveled).Nodup := by
  have hall : checkTaxonomies dimensions = [] ↔
      ∀ taxonomy, (dimensions.filterMap (levelWithin taxonomy)).Nodup := by
    rw [checkTaxonomies, List.flatMap_eq_nil_iff]
    simp only [checkLevels_eq_nil_iff, (map_level_declaredLevels dimensions _).nodup_iff]
    constructor
    · intro h taxonomy
      by_cases hmem : taxonomy ∈ taxonomyNames [] dimensions
      · exact h taxonomy hmem
      · rw [filterMap_levelWithin_eq_nil hmem]
        exact List.nodup_nil
    · exact fun h taxonomy _ => h taxonomy
  rw [hall]
  simp only [List.Nodup, List.pairwise_filterMap]
  simp only [List.pairwise_iff_getElem]
  constructor
  · rintro h i j hi hj hij ⟨taxonomy, level⟩ hlevel _ hother rfl
    exact h taxonomy i j hi hj hij level (leveled_eq_some_iff.1 hlevel) level
      (leveled_eq_some_iff.1 hother) rfl
  · rintro h taxonomy i j hi hj hij level hlevel _ hother rfl
    exact h i j hi hj hij _ (leveled_eq_some_iff.2 hlevel) _ (leveled_eq_some_iff.2 hother) rfl

theorem filterMap_eq_of_forall₂ {α β γ : Type} {R : α → β → Prop} {as : List α} {bs : List β}
    (h : List.Forall₂ R as bs) {f : α → Option γ} {g : β → Option γ}
    (hR : ∀ a b, R a b → f a = g b) : as.filterMap f = bs.filterMap g := by
  induction h with
  | nil => rfl
  | cons hab _ ih => rw [List.filterMap_cons, List.filterMap_cons, hR _ _ hab, ih]

/-- A dimension has the level of its declaration. -/
theorem IsDeclared.level_eq {entry : String × DimensionSpec} {d : Dimension}
    (h : IsDeclared entry d) : d.level? = entry.2.level?.bind DimensionSpec.levelOf? := by
  obtain ⟨kind, -, hcheck⟩ := h
  obtain rfl : (checkDimension entry.1 kind entry.2).1 = d := by rw [hcheck]
  show (checkLevel entry.1 entry.2.level?).1 = _
  cases entry.2.level? with
  | none => rfl
  | some literal =>
    rw [checkLevel, Option.bind_some, ← DimensionSpec.levelOf?]
    cases DimensionSpec.levelOf? literal <;> rfl

/-- A classifier belongs to the taxonomy of its declaration, or to one of its own name. -/
theorem IsDeclared.taxonomy_eq {entry : String × DimensionSpec} {d : Dimension}
    (h : IsDeclared entry d) (hkind : d.kind = .classifier) :
    d.taxonomy? = some (entry.2.taxonomy?.getD entry.1) := by
  obtain ⟨kind, -, hcheck⟩ := h
  obtain rfl : (checkDimension entry.1 kind entry.2).1 = d := by rw [hcheck]
  show taxonomyOf entry.1 kind entry.2.taxonomy? = _
  have hkind : kind = .classifier := hkind
  rw [taxonomyOf, if_pos (by simpa using hkind)]

/-- A dimension has the level and the taxonomy of its declaration. -/
theorem IsDeclared.leveled_eq {entry : String × DimensionSpec} {d : Dimension}
    (h : IsDeclared entry d) :
    leveled d = if DimensionKind.ofName? entry.2.kind = some .classifier then
      (entry.2.level?.bind DimensionSpec.levelOf?).map fun level =>
        (entry.2.taxonomy?.getD entry.1, level)
    else none := by
  simp only [leveled, h.level_eq, h.kind, Option.some.injEq]
  by_cases hclassifier : d.kind = .classifier
  · rw [h.taxonomy_eq hclassifier, if_pos (by simpa using hclassifier), if_pos hclassifier,
      Option.bind_some]
  · rw [if_neg (by simpa using hclassifier), if_neg hclassifier]

/-! ## Schemas of a document -/

/-- Whether the dimensions of a schema are those of a document. -/
structure Represents (doc : Document) (schema : Schema) : Prop where
  dimensions : List.Forall₂
    (fun entry d => Stands entry d ∧ DimensionKind.ofName? entry.2.kind = some d.kind)
    doc.dimensions schema.dimensions
  names_nodup : (schema.dimensions.map Dimension.name).Nodup

/-- The datatype of a scalar dimension is the declared one. -/
theorem Stands.scalarType {entry : String × DimensionSpec} {d : Dimension} (h : Stands entry d)
    {datatype : DataType} {default? : Option Value}
    (hcontent : d.content = .scalar datatype default?) :
    datatype = declaredType entry.2.datatype? := by
  have hspec : entry.2.isCompound = false := by
    rw [← h.shape, Dimension.isCompound, hcontent]
  have hslots := h.slots 0
  rw [slotsOf, hcontent, DimensionSpec.slots, if_neg (by simp [hspec])] at hslots
  exact congrArg Slot.datatype (List.cons.inj hslots).1

theorem isSome_attributeIndex? {d : Dimension} {name : String} :
    (d.attributeIndex? name).isSome = true ↔ name ∈ d.attributes.map Attribute.name := by
  rw [Dimension.attributeIndex?, List.findIdx?_isSome, List.any_eq_true, List.mem_map]
  simp only [beq_iff_eq]

/-- A compound dimension that is declared as it should be has a name. -/
theorem Stands.exists_nameIndex {entry : String × DimensionSpec} {d : Dimension}
    (h : Stands entry d) (hsound : entry.2.IsSound) (hcompound : entry.2.isCompound = true) :
    ∃ position, d.attributeIndex? nameAttribute = some position := by
  have hnamed := hsound.named hcompound
  rwa [← h.attributeNames (h.shape.trans hcompound), ← isSome_attributeIndex?,
    Option.isSome_iff_exists] at hnamed

/-- The rest of a path names a field of a dimension iff it names something in its declaration. -/
theorem Stands.isSome_fieldOf? {entry : String × DimensionSpec} {d : Dimension}
    (h : Stands entry d) (index : Nat) (tail : Option String) :
    (d.fieldOf? index tail).isSome = true ↔ entry.2.HasPart tail := by
  cases hcontent : d.content with
  | scalar datatype default? =>
    have hspec : entry.2.isCompound = false := by
      rw [← h.shape, Dimension.isCompound, hcontent]
    cases tail with
    | none => simp only [Dimension.fieldOf?, hcontent]; exact iff_of_true rfl (.scalar hspec)
    | some part =>
      simp only [Dimension.fieldOf?, hcontent, h.scalarType hcontent]
      constructor
      · intro hfield
        split at hfield
        · rename_i hdate
          refine .datePart hspec (eq_of_beq hdate) ?_
          rw [Option.isSome_map] at hfield
          by_contra hpart
          simp only [List.mem_cons, List.not_mem_nil, or_false, not_or] at hpart
          simp [DatePart.ofName?, hpart.1, hpart.2.1, hpart.2.2] at hfield
        · cases hfield
      · rintro (_ | ⟨-, hdate, hpart⟩ | ⟨hcompound, -⟩)
        · rw [hdate, if_pos (beq_self_eq_true _), Option.isSome_map]
          simp only [List.mem_cons, List.not_mem_nil, or_false] at hpart
          rcases hpart with rfl | rfl | rfl <;> rfl
        · rw [hspec] at hcompound
          cases hcompound
  | compound attributes =>
    have hd : d.isCompound = true := by rw [Dimension.isCompound, hcontent]
    have hspec : entry.2.isCompound = true := h.shape ▸ hd
    have hfield : (d.fieldOf? index tail).isSome = true ↔
        tail.getD nameAttribute ∈ entry.2.attributes.map Prod.fst := by
      rw [← h.attributeNames hd, ← isSome_attributeIndex?]
      simp only [Dimension.fieldOf?, hcontent, Option.isSome_map]
    rw [hfield]
    constructor
    · exact .attribute hspec
    · rintro (hscalar | ⟨hscalar, -, -⟩ | ⟨-, hmem⟩)
      · rw [hspec] at hscalar
        cases hscalar
      · rw [hspec] at hscalar
        cases hscalar
      · exact hmem

namespace Represents

variable {doc : Document} {schema : Schema}

theorem exists_entry (h : Represents doc schema) {index : Nat} {d : Dimension}
    (hd : schema.dimensions[index]? = some d) :
    ∃ entry ∈ doc.dimensions, Stands entry d ∧
      DimensionKind.ofName? entry.2.kind = some d.kind := by
  obtain ⟨hlt, rfl⟩ := List.getElem?_eq_some_iff.1 hd
  have hlt' : index < doc.dimensions.length := by rw [h.dimensions.length_eq]; exact hlt
  exact ⟨_, List.getElem_mem hlt', h.dimensions.get hlt' hlt⟩

theorem exists_dimension (h : Represents doc schema) {entry : String × DimensionSpec}
    (hentry : entry ∈ doc.dimensions) :
    ∃ (index : Nat) (d : Dimension), schema.dimensions[index]? = some d ∧ Stands entry d ∧
      DimensionKind.ofName? entry.2.kind = some d.kind := by
  obtain ⟨index, hlt, rfl⟩ := List.mem_iff_getElem.1 hentry
  have hlt' : index < schema.dimensions.length := by rw [← h.dimensions.length_eq]; exact hlt
  exact ⟨index, _, List.getElem?_eq_getElem hlt', h.dimensions.get hlt hlt'⟩

/-- A path resolves iff it names a place of the facts of the document. -/
theorem isSome_resolve? (h : Represents doc schema) (path : String) :
    (schema.resolve? path).isSome = true ↔ doc.Names path := by
  rw [Option.isSome_iff_exists]
  simp only [Schema.resolve?_eq_some_iff h.names_nodup]
  constructor
  · rintro ⟨field, d, hd, hname, hfield⟩
    obtain ⟨entry, hentry, hstands, -⟩ := h.exists_entry hd
    refine ⟨entry, hentry, hstands.name_eq ▸ hname, ?_⟩
    rw [← hstands.isSome_fieldOf? field.dimension, hfield]
    rfl
  · rintro ⟨entry, hentry, hname, hpart⟩
    obtain ⟨index, d, hd, hstands, -⟩ := h.exists_dimension hentry
    rw [← hstands.isSome_fieldOf? index, Option.isSome_iff_exists] at hpart
    obtain ⟨field, hfield⟩ := hpart
    have hindex := Dimension.dimension_of_fieldOf? hfield
    rw [← hindex] at hd hfield
    exact ⟨field, d, hd, hstands.name_eq.trans hname, hfield⟩

/-! ## Views -/

/-- A dimension of a schema is the subject of a view iff its declaration is. -/
theorem isSubject_iff (h : Represents doc schema) {scope : ViewScope} {dimension : String} :
    ViewSpec.IsSubject doc scope dimension ↔
      ∃ index d, schema.dimensionIndex? dimension = some index ∧
        schema.dimensions[index]? = some d ∧ suits scope d.kind = true := by
  constructor
  · rintro ⟨entry, hentry, hname, kind, hkind, hsuits⟩
    obtain ⟨index, d, hd, hstands, hdkind⟩ := h.exists_dimension hentry
    rw [hkind, Option.some.injEq] at hdkind
    have hindex := (Schema.dimensionIndex?_eq_some_iff h.names_nodup).2
      ⟨d, hd, hstands.name_eq.trans hname⟩
    exact ⟨index, d, hindex, hd, hdkind ▸ hsuits⟩
  · rintro ⟨index, d, hindex, hd, hsuits⟩
    obtain ⟨d', hd', hname⟩ := (Schema.dimensionIndex?_eq_some_iff h.names_nodup).1 hindex
    obtain rfl := Option.some.inj (hd.symm.trans hd')
    obtain ⟨entry, hentry, hstands, hkind⟩ := h.exists_entry hd
    exact ⟨entry, hentry, hstands.name_eq ▸ hname, d.kind, hkind, hsuits⟩

theorem suits_dataset (kind : DimensionKind) : suits .dataset kind = false := by
  cases kind <;> rfl

/-- Nothing is found in the subject of a view iff it is `dataset` exactly for the dataset scope and
else a dimension of the scope's kind. -/
theorem checkSubject_eq_nil_iff (h : Represents doc schema) {scope : ViewScope} {view : ViewSpec} :
    (checkSubject schema scope view).2 = [] ↔
      (view.dimension = datasetSubject ↔ scope = .dataset) ∧
        (scope ≠ .dataset → ViewSpec.IsSubject doc scope view.dimension) := by
  rw [checkSubject]
  by_cases hdataset : view.dimension = datasetSubject
  · rw [if_pos (by simpa using hdataset)]
    by_cases hscope : scope = .dataset <;> simp [hdataset, hscope]
  · rw [if_neg (by simpa using hdataset), h.isSubject_iff]
    have hboth : ((view.dimension = datasetSubject ↔ scope = .dataset) ∧
        (scope ≠ .dataset → ∃ index d, schema.dimensionIndex? view.dimension = some index ∧
          schema.dimensions[index]? = some d ∧ suits scope d.kind = true)) ↔
        ∃ index d, schema.dimensionIndex? view.dimension = some index ∧
          schema.dimensions[index]? = some d ∧ suits scope d.kind = true := by
      constructor
      · rintro ⟨hiff, hsubject⟩
        exact hsubject fun hscope => hdataset (hiff.2 hscope)
      · rintro ⟨index, d, hindex, hd, hsuits⟩
        refine ⟨iff_of_false hdataset ?_, fun _ => ⟨index, d, hindex, hd, hsuits⟩⟩
        rintro rfl
        rw [suits_dataset] at hsuits
        cases hsuits
    rw [hboth]
    cases hindex : schema.dimensionIndex? view.dimension with
    | none => simp
    | some index =>
      obtain ⟨d, hd, -⟩ := (Schema.dimensionIndex?_eq_some_iff h.names_nodup).1 hindex
      simp [hd]

theorem isSome_scopeProperty? {scope : ViewScope} {key : String} :
    (scopeProperty? scope key).isSome = true ↔ key ∈ scope.propertyKeys := by
  cases scope with
  | dataset =>
    simp only [scopeProperty?, ViewScope.propertyKeys, List.mem_cons, List.not_mem_nil, or_false]
    by_cases hname : key = "name"
    · simp [hname]
    · by_cases hlabel : key = "label"
      · simp [hlabel]
      · by_cases hcurrency : key = "currency" <;> simp [hname, hlabel, hcurrency]
  | classifier =>
    by_cases htaxonomy : key = "taxonomy" <;>
      simp [scopeProperty?, ViewScope.propertyKeys, htaxonomy]
  | entity => simp [scopeProperty?, ViewScope.propertyKeys]

/-- The subject of a view is the dimension it names, unless it names the dataset. -/
theorem checkSubject_fst (h : Represents doc schema) {scope : ViewScope} {view : ViewSpec} :
    (checkSubject schema scope view).1 =
      if view.dimension = datasetSubject then none else schema.dimensionIndex? view.dimension := by
  rw [checkSubject]
  by_cases hdataset : view.dimension = datasetSubject
  · rw [if_pos (by simpa using hdataset), if_pos hdataset]
  · rw [if_neg (by simpa using hdataset), if_neg hdataset]
    cases hindex : schema.dimensionIndex? view.dimension with
    | none => rfl
    | some index =>
      obtain ⟨d, hd, -⟩ := (Schema.dimensionIndex?_eq_some_iff h.names_nodup).1 hindex
      simp only [hd]

/-- The subject has an attribute iff its declaration has it. -/
theorem isSome_subjectAttribute? (h : Represents doc schema) {scope : ViewScope} {view : ViewSpec}
    {key : String} :
    ((checkSubject schema scope view).1.bind fun index =>
      (schema.dimensions[index]?).bind fun d =>
        (d.attributeIndex? key).map fun position => Field.component index position).isSome = true ↔
      view.HasSubjectAttribute doc key := by
  rw [Option.isSome_iff_exists, h.checkSubject_fst, ViewSpec.HasSubjectAttribute]
  by_cases hdataset : view.dimension = datasetSubject
  · rw [if_pos hdataset]
    simp [hdataset]
  · rw [if_neg hdataset, and_iff_right hdataset]
    constructor
    · rintro ⟨field, hfield⟩
      simp only [Option.bind_eq_some_iff, Option.map_eq_some_iff] at hfield
      obtain ⟨index, hindex, d, hd, position, hposition, -⟩ := hfield
      obtain ⟨d', hd', hname⟩ := (Schema.dimensionIndex?_eq_some_iff h.names_nodup).1 hindex
      obtain rfl := Option.some.inj (hd.symm.trans hd')
      obtain ⟨entry, hentry, hstands, -⟩ := h.exists_entry hd
      have hmem := isSome_attributeIndex?.1 (Option.isSome_iff_exists.2 ⟨position, hposition⟩)
      have hcompound : d.isCompound = true := by
        by_contra hscalar
        rw [d.attributes_eq_nil (by simpa using hscalar)] at hmem
        cases hmem
      rw [hstands.attributeNames hcompound] at hmem
      exact ⟨entry, hentry, hstands.name_eq ▸ hname, hstands.shape ▸ hcompound, hmem⟩
    · rintro ⟨entry, hentry, hname, hcompound, hmem⟩
      obtain ⟨index, d, hd, hstands, -⟩ := h.exists_dimension hentry
      have hindex := (Schema.dimensionIndex?_eq_some_iff h.names_nodup).2
        ⟨d, hd, hstands.name_eq.trans hname⟩
      rw [← hstands.attributeNames (hstands.shape.trans hcompound), ← isSome_attributeIndex?,
        Option.isSome_iff_exists] at hmem
      obtain ⟨position, hposition⟩ := hmem
      exact ⟨.component index position, by simp [hindex, hd, hposition]⟩

/-- A filter key names a field iff it is an attribute of the subject or a path. -/
theorem isSome_filterField? (h : Represents doc schema) {scope : ViewScope} {view : ViewSpec}
    {key : String} :
    (filterField? schema (checkSubject schema scope view).1 key).isSome = true ↔
      view.HasSubjectAttribute doc key ∨ doc.Names key := by
  rw [← @isSome_subjectAttribute? _ _ h scope view key, ← h.isSome_resolve?, filterField?]
  split
  · rename_i field hfield
    exact iff_of_true rfl (.inl (by rw [hfield]; rfl))
  · rename_i hnone
    simp [hnone]

/-- A filter key stands for a filter iff it is a property of the scope, an attribute of the subject
or a path. -/
theorem isSome_filterOf? (h : Represents doc schema) {scope : ViewScope} {view : ViewSpec}
    {key : String} {literal : Literal} :
    (filterOf? schema scope (checkSubject schema scope view).1 key literal).isSome = true ↔
      key ∈ scope.propertyKeys ∨ view.HasSubjectAttribute doc key ∨ doc.Names key := by
  rw [← isSome_scopeProperty?, ← @isSome_filterField? _ _ h scope, filterOf?]
  cases hproperty : scopeProperty? scope key with
  | some property => simp
  | none => simp

/-- Nothing is found in a view of a scope iff it fits the scope and repeats no view before it. -/
theorem checkView_eq_nil_iff (h : Represents doc schema) {seen : List ViewKey} {scope : ViewScope}
    {view : ViewSpec} :
    (checkView schema seen scope view).2 = [] ↔
      view.FitsScope doc scope ∧ (scope, view.dimension, view.name) ∉ seen := by
  have hfilters : (checkFilters schema scope (checkSubject schema scope view).1 view).2 = [] ↔
      ∀ filter ∈ view.filters, filter.1 ∈ scope.propertyKeys ∨
        view.HasSubjectAttribute doc filter.1 ∨ doc.Names filter.1 := by
    simp only [checkFilters, List.map_eq_nil_iff, List.filter_eq_nil_iff, List.forall_mem_map,
      Option.isNone_iff_eq_none]
    refine forall₂_congr fun filter _ => ?_
    rw [← @isSome_filterOf? _ _ h scope view filter.1 filter.2, ← Option.ne_none_iff_isSome]
  have hduplicate : (if seen.contains (scope, view.dimension, view.name) then
      [Violation.duplicateView view.entity view.dimension view.name] else []) = [] ↔
        (scope, view.dimension, view.name) ∉ seen := by
    by_cases hseen : (scope, view.dimension, view.name) ∈ seen <;> simp [hseen]
  show (checkSubject schema scope view).2 ++ _ ++ _ ++ _ = [] ↔ _
  rw [List.append_eq_nil_iff, List.append_eq_nil_iff, List.append_eq_nil_iff]
  have hfits : view.FitsScope doc scope ↔
      ((((view.dimension = datasetSubject ↔ scope = .dataset) ∧
        (scope ≠ .dataset → ViewSpec.IsSubject doc scope view.dimension)) ∧
        doc.Names view.breakdown) ∧
        ∀ filter ∈ view.filters, filter.1 ∈ scope.propertyKeys ∨
          view.HasSubjectAttribute doc filter.1 ∨ doc.Names filter.1) := by
    constructor
    · rintro ⟨hdataset, hsubject, hnames, hkeys⟩
      exact ⟨⟨⟨hdataset, hsubject⟩, hnames⟩, hkeys⟩
    · rintro ⟨⟨⟨hdataset, hsubject⟩, hnames⟩, hkeys⟩
      exact ⟨hdataset, hsubject, hnames, hkeys⟩
  rw [hfits]
  refine and_congr (and_congr (and_congr h.checkSubject_eq_nil_iff ?_) hfilters) hduplicate
  rw [← h.isSome_resolve?]
  cases schema.resolve? view.breakdown <;> simp

/-- Nothing is found in the views iff all are sound, none repeats one seen before and no two of them
have the same scope, dimension and name. -/
theorem checkViews_eq_nil_iff (h : Represents doc schema) {seen : List ViewKey}
    {views : List ViewSpec} :
    (checkViews schema seen views).2 = [] ↔
      (∀ view ∈ views, view.IsSound doc) ∧
      (∀ view ∈ views, ∀ scope, ViewScope.ofName? view.entity = some scope →
        (scope, view.dimension, view.name) ∉ seen) ∧
      (views.map fun view => (view.entity, view.dimension, view.name)).Nodup := by
  induction views generalizing seen with
  | nil => simp [checkViews]
  | cons view views ih =>
    rw [List.forall_mem_cons, List.forall_mem_cons, List.map_cons, List.nodup_cons, checkViews,
      ViewSpec.IsSound]
    cases hscope : ViewScope.ofName? view.entity with
    | none => simp
    | some scope =>
      -- views have the same key iff they have the same scope name, dimension and name
      have hnew : (∀ other ∈ views, ∀ scope', ViewScope.ofName? other.entity = some scope' →
          (scope', other.dimension, other.name) ∉ (scope, view.dimension, view.name) :: seen) ↔
          (view.entity, view.dimension, view.name) ∉
              views.map (fun view => (view.entity, view.dimension, view.name)) ∧
            ∀ other ∈ views, ∀ scope', ViewScope.ofName? other.entity = some scope' →
              (scope', other.dimension, other.name) ∉ seen := by
        simp only [List.mem_cons, not_or, forall_and]
        refine and_congr_left fun _ => ?_
        constructor
        · intro hdistinct hmem
          obtain ⟨other, hother, heq⟩ := List.mem_map.1 hmem
          obtain ⟨hentity, hrest⟩ := Prod.mk.inj heq
          exact hdistinct other hother scope (hentity ▸ hscope) (congrArg (Prod.mk scope) hrest)
        · intro hdistinct other hother scope' hscope' heq
          obtain ⟨rfl, hrest⟩ := Prod.mk.inj heq
          have hentity : other.entity = view.entity :=
            (ViewScope.name_of_ofName? hscope').symm.trans (ViewScope.name_of_ofName? hscope)
          exact hdistinct (List.mem_map.2 ⟨other, hother, by rw [hentity, hrest]⟩)
      simp only [List.append_eq_nil_iff, h.checkView_eq_nil_iff, ih, hnew, Option.some.injEq,
        exists_eq_left', forall_eq']
      tauto

end Represents

/-! ## Documents -/

theorem checkDataset_eq_nil_iff {dataset : Dataset} :
    checkDataset dataset = [] ↔ Text.isBlankText dataset.name = false := by
  rw [checkDataset]
  cases Text.isBlankText dataset.name <;> simp

/-- Without violations in the dimensions, the schema that views are checked in has the dimensions of
the document. -/
theorem represents_withLevels {doc : Document} {schema : Schema} {taxonomies : List Taxonomy}
    (h : (checkDimensions [] doc.dimensions).violations = [])
    (hschema : schema.dimensions =
      withLevels taxonomies (checkDimensions [] doc.dimensions).dimensions) :
    Represents doc schema where
  dimensions := by
    rw [hschema]
    refine forall₂_withLevels (fun _ _ level? hentry => ⟨hentry.1.withLevel level?, hentry.2⟩)
      ((forall₂_checkDimensions h).imp fun entry d hentry => ?_) _
    have hentry : IsDeclared entry d := hentry
    exact ⟨hentry.stands, hentry.kind⟩
  names_nodup := by
    rw [hschema, withLevels_map _ _ _ fun _ _ => rfl]
    exact (names_checkDimensions h).1

end Validation

namespace Document

open Validation

/-- A document has no violations iff it keeps all rules. -/
theorem check_eq_nil_iff {doc : Document} : (check doc).2 = [] ↔ doc.KeepsAllRules := by
  set declared := checkDimensions [] doc.dimensions with hdeclared
  have hparts : (check doc).2 = [] ↔
      ((((checkDataset doc.dataset = [] ∧ declared.violations = []) ∧
        (checkMapping doc.mapping declared).2 = []) ∧ checkRoles declared.dimensions = []) ∧
        checkTaxonomies declared.dimensions = []) ∧
        (checkViews (⟨doc.dataset, withLevels (taxonomies declared.dimensions) declared.dimensions,
          (checkMapping doc.mapping declared).1, taxonomies declared.dimensions, []⟩ : Schema) []
            doc.views).2 = [] := by
    rw [← List.append_eq_nil_iff, ← List.append_eq_nil_iff, ← List.append_eq_nil_iff,
      ← List.append_eq_nil_iff, ← List.append_eq_nil_iff]
    rfl
  rw [hparts]
  by_cases hdims : declared.violations = []
  · -- the other passes see the dimensions of the document
    have hall : List.Forall₂ IsDeclared doc.dimensions declared.dimensions :=
      forall₂_checkDimensions hdims
    have hslots : Validation.slots declared.dimensions = doc.slots :=
      slotsFrom_of_stands (hall.imp fun _ _ => IsDeclared.stands) 0
    have hlevels : declared.dimensions.filterMap leveled = doc.classifierLevels :=
      (filterMap_eq_of_forall₂ hall fun _ _ h => h.leveled_eq.symm).symm
    have hsound := hdims
    rw [hdeclared, violations_checkDimensions_iff] at hsound
    rw [checkDataset_eq_nil_iff, checkMapping_eq_nil_iff, rejected_checkDimensions hdims, hslots,
      checkRoles_eq_nil_iff hall, checkTaxonomies_eq_nil_iff, hlevels,
      (represents_withLevels hdims rfl).checkViews_eq_nil_iff]
    constructor
    · rintro ⟨⟨⟨⟨⟨hdataset, -⟩, hcolumns, hmapped, htargets⟩, hroles⟩, hlevels⟩, hviews, -, hnodup⟩
      exact ⟨⟨hdataset, hsound.1, hsound.2.2, hcolumns, hmapped,
        fun entry hentry => (htargets entry hentry).resolve_right List.not_mem_nil, hroles, hlevels,
        hviews⟩, hnodup⟩
    · rintro ⟨⟨hdataset, -, -, hcolumns, hmapped, htargets, hroles, hlevels, hviews⟩, hnodup⟩
      exact ⟨⟨⟨⟨⟨hdataset, hdims⟩, hcolumns, hmapped, fun entry hentry =>
        .inl (htargets entry hentry)⟩, hroles⟩, hlevels⟩, hviews,
        fun _ _ _ _ => List.not_mem_nil, hnodup⟩
  · -- a document with violations in its dimensions breaks the rules for them
    refine iff_of_false (fun h => hdims h.1.1.1.1.2) fun h => hdims ?_
    exact violations_checkDimensions_iff.2
      ⟨h.names_nodup, fun _ _ => List.not_mem_nil, h.dimensions⟩

/-- A document is accepted iff it keeps all rules. -/
theorem exists_validate_iff (doc : Document) :
    (∃ schema, doc.validate = .ok schema) ↔ doc.KeepsAllRules := by
  rw [← check_eq_nil_iff, ← List.isEmpty_iff]
  show (∃ schema, (if (check doc).2.isEmpty then Except.ok (check doc).1 else _) = _) ↔ _
  split
  · rename_i hnone
    exact iff_of_true ⟨_, rfl⟩ hnone
  · rename_i hsome
    refine iff_of_false ?_ hsome
    rintro ⟨schema, h⟩
    cases h

variable {doc : Document} {schema : Schema}

theorem keepsAllRules_of_validate (h : doc.validate = .ok schema) : doc.KeepsAllRules :=
  check_eq_nil_iff.1 (check_of_validate h).2

theorem represents_of_validate (h : doc.validate = .ok schema) : Represents doc schema :=
  represents_withLevels (accepted_of_validate h).declarations (accepted_of_validate h).dimensions_eq

/-- Every compound dimension of a validated schema has a name. -/
theorem exists_nameIndex_of_validate (h : doc.validate = .ok schema) {index : Nat} {d : Dimension}
    (hd : schema.dimensions[index]? = some d) (hcompound : d.kind.isCompound = true) :
    ∃ position, d.attributeIndex? nameAttribute = some position := by
  obtain ⟨entry, hentry, hstands, hkind⟩ := (represents_of_validate h).exists_entry hd
  refine hstands.exists_nameIndex ((keepsAllRules_of_validate h).dimensions entry hentry) ?_
  rw [DimensionSpec.isCompound, hkind, Option.any_some, hcompound]

end Document

/-! ## Views declared twice -/

namespace Sample

/-- A view on the whole dataset. -/
def regionsSpec : ViewSpec := ⟨"dataset", "Regions", "regions", "dataset", "region", []⟩

/-- A document that declares a view twice. -/
def repeatedViewDocument : Document where
  dataset := ⟨"budget", "", "", "GBP"⟩
  mapping := [("region", "region")]
  dimensions :=
    [("region", ⟨"value", "", "", some "string", [], none, false, false, none, none, none⟩)]
  views := [regionsSpec, regionsSpec]

/-- Its other declarations are as they should be. -/
theorem keepsRules_repeatedView : repeatedViewDocument.KeepsRules where
  dataset_named := by decide
  names_nodup := by decide
  dimensions := by
    refine List.forall_mem_singleton.2 ?_
    exact ⟨⟨.value, rfl⟩, fun _ => ⟨"string", .string, rfl, rfl⟩, (nomatch ·), (nomatch ·),
      List.forall_mem_singleton.2 fun _ h => (nomatch h), fun _ h => (nomatch h)⟩
  columns := by decide
  mapped := List.forall_mem_singleton.2 ⟨"region", rfl⟩
  targets := List.forall_mem_singleton.2 ⟨_, List.mem_cons_self, rfl⟩
  roles := List.forall_mem_singleton.2 ⟨(nomatch ·), (nomatch ·)⟩
  levels_nodup := by decide
  views := by
    have hsound : regionsSpec.IsSound repeatedViewDocument :=
      ⟨.dataset, rfl, iff_of_true rfl rfl, fun h => absurd rfl h,
        ⟨_, List.mem_cons_self, rfl, .scalar rfl⟩, List.forall_mem_nil _⟩
    exact List.forall_mem_cons.2 ⟨hsound, List.forall_mem_singleton.2 hsound⟩

theorem validate_repeatedView : repeatedViewDocument.validate =
    .error ⟨"budget", [.duplicateView "dataset" "dataset" "regions"]⟩ := rfl

end Sample

/-- A document can keep the other rules and be rejected, as it declares a view twice. -/
theorem not_forall_exists_validate_iff :
    ¬ ∀ doc : Document, (∃ schema, doc.validate = .ok schema) ↔ doc.KeepsRules := by
  intro h
  obtain ⟨schema, hschema⟩ := (h Sample.repeatedViewDocument).2 Sample.keepsRules_repeatedView
  rw [Sample.validate_repeatedView] at hschema
  cases hschema

end FactCube
