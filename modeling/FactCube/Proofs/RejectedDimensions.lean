import FactCube.Proofs.Taxonomies
import FactCube.Proofs.Views

/-!
# Rejected dimensions

A declaration without a known kind builds no dimension, so everything behind it moves up by one
place, the classifiers that share its taxonomy may get other levels, and its mapping entries have no
slots. In a document that was accepted before, none of this breaks another rule: the rules for the
other declarations do not depend on it, its mapping entries are recognised by the head of their
paths, and views find their fields by name. So the unknown kind is all that is reported, unless a
view uses the dimension.

Results:
* `Validation.checkDimensions_unknownKind`: what a declaration without a known kind changes.
* `Document.checkMapping_others`, `checkTaxonomies_others`, `checkViews_others`: nothing is found in
  what is left.
* `Document.validate_unknownKind`: the unknown kind is all that is reported.
-/

namespace FactCube

/-! ## Uses of a dimension -/

/-- Whether a view uses the dimension at a position: as its subject, in its breakdown or in a
filter. -/
def View.Uses (view : View) (index : Nat) : Prop :=
  view.subject? = some index ∨ view.breakdown.dimension = index ∨
    ∃ key field expected, .fact key field expected ∈ view.filters ∧ field.dimension = index

namespace Validation

/-! ## Declarations -/

/-- Names that are not declared do not matter for what is declared. -/
theorem checkDimensions_congr {seen seen' : List String} {specs : List (String × DimensionSpec)}
    (h : ∀ entry ∈ specs, entry.1 ∈ seen ↔ entry.1 ∈ seen') :
    checkDimensions seen specs = checkDimensions seen' specs := by
  induction specs generalizing seen seen' with
  | nil => rfl
  | cons entry specs ih =>
    obtain ⟨name, spec⟩ := entry
    rw [List.forall_mem_cons] at h
    have hseen : seen.contains name = seen'.contains name := by
      rw [Bool.eq_iff_iff, List.contains_iff_mem, List.contains_iff_mem, h.1]
    have hrest : checkDimensions (name :: seen) specs = checkDimensions (name :: seen') specs :=
      ih fun entry hentry => by simp only [List.mem_cons, h.2 entry hentry]
    rw [checkDimensions, checkDimensions, hseen, ih h.2, hrest]

/-- A new declaration without a known kind among others without violations is rejected and reported,
and the dimensions are those of the others. -/
theorem checkDimensions_unknownKind {name : String} {spec : DimensionSpec}
    (hkind : DimensionKind.ofName? spec.kind = none) {seen : List String}
    {before after : List (String × DimensionSpec)} (hseen : name ∉ seen)
    (hbefore : name ∉ before.map Prod.fst) (hafter : name ∉ after.map Prod.fst)
    (hnone : (checkDimensions seen (before ++ after)).violations = []) :
    checkDimensions seen (before ++ (name, spec) :: after) =
      ⟨(checkDimensions seen (before ++ after)).dimensions, [name],
        [.unknownDimensionKind name spec.kind]⟩ := by
  induction before generalizing seen with
  | nil =>
    rw [List.nil_append] at hnone
    have hrest : checkDimensions (name :: seen) after = checkDimensions seen after := by
      refine checkDimensions_congr fun entry hentry => ?_
      have hne : entry.1 ≠ name := fun heq => hafter (heq ▸ List.mem_map_of_mem hentry)
      rw [List.mem_cons, or_iff_right hne]
    rw [List.nil_append, checkDimensions, if_neg (by simpa using hseen), hrest, hkind]
    simp only [hnone, rejected_checkDimensions hnone]
    rfl
  | cons entry before ih =>
    obtain ⟨other, otherSpec⟩ := entry
    simp only [List.map_cons, List.mem_cons, not_or] at hbefore
    rw [List.cons_append, checkDimensions] at hnone
    rw [List.cons_append, List.cons_append, checkDimensions, checkDimensions]
    split at hnone
    · simp at hnone
    · rename_i hother
      rw [if_neg hother, if_neg hother]
      have hseen' : name ∉ other :: seen := by simp [hbefore.1, hseen]
      cases hkind' : DimensionKind.ofName? otherSpec.kind with
      | none => simp [hkind'] at hnone
      | some kind' =>
        simp only [hkind', List.append_eq_nil_iff] at hnone ⊢
        rw [ih hseen' hbefore.2 hnone.2, hnone.1]
        rfl

end Validation

/-! ## Paths of slots -/

/-- The paths of the slots of a declared dimension. -/
def DimensionSpec.paths (name : String) (spec : DimensionSpec) : List String :=
  if spec.isCompound then spec.attributes.map fun attr => name ++ "." ++ attr.1 else [name]

theorem DimensionSpec.map_path_slots (index : Nat) (name : String) (spec : DimensionSpec) :
    (spec.slots index name).map Validation.Slot.path = spec.paths name := by
  rw [DimensionSpec.slots, DimensionSpec.paths]
  split
  · rw [List.map_map]
    conv_rhs => rw [← List.zipIdx_map_fst 0 spec.attributes, List.map_map]
    rfl
  · rfl

/-- The paths of the slots of a document do not depend on the positions of its dimensions. -/
theorem Document.map_path_slots (doc : Document) :
    doc.slots.map Validation.Slot.path =
      doc.dimensions.flatMap fun entry => entry.2.paths entry.1 := by
  rw [Document.slots, List.map_flatMap]
  conv_rhs => rw [← List.zipIdx_map_fst 0 doc.dimensions, List.flatMap_map]
  refine List.flatMap_congr fun placed _ => ?_
  exact DimensionSpec.map_path_slots _ _ _

/-- The head of a path to a dimension without a point in its name is that name. -/
theorem DimensionSpec.head_of_mem_paths {name path : String} {spec : DimensionSpec}
    (hpoint : '.' ∉ name.toList) (h : path ∈ spec.paths name) :
    (Schema.splitPath path).1 = name := by
  rw [DimensionSpec.paths] at h
  split at h
  · obtain ⟨attr, -, rfl⟩ := List.mem_map.1 h
    rw [Schema.splitPath_append hpoint]
  · rw [List.mem_singleton.1 h, Schema.splitPath_of_notMem hpoint]

/-! ## Views without a dimension -/

/-- Whether a view of a scope can do without the dimension of a name: the view is not about it, and
the paths of its breakdown and of its filters do not start with the name. -/
structure ViewSpec.Avoids (doc : Document) (scope : ViewScope) (view : ViewSpec) (name : String) :
    Prop where
  subject : view.dimension = datasetSubject ∨ view.dimension ≠ name
  breakdown : (Schema.splitPath view.breakdown).1 ≠ name
  filters : ∀ filter ∈ view.filters, filter.1 ∈ scope.propertyKeys ∨
    view.HasSubjectAttribute doc filter.1 ∨ (Schema.splitPath filter.1).1 ≠ name

/-- A view that can do without a dimension fits a document that has only the others. -/
theorem ViewSpec.FitsScope.of_avoids {doc rest : Document} {name : String}
    (hrest : ∀ entry ∈ doc.dimensions, entry.1 ≠ name → entry ∈ rest.dimensions)
    {scope : ViewScope} {view : ViewSpec} (h : view.FitsScope doc scope)
    (havoids : view.Avoids doc scope name) : view.FitsScope rest scope := by
  have hnames : ∀ path, doc.Names path → (Schema.splitPath path).1 ≠ name → rest.Names path := by
    rintro path ⟨entry, hentry, hhead, hpart⟩ hne
    exact ⟨entry, hrest entry hentry (hhead ▸ hne), hhead, hpart⟩
  have hsubject : view.dimension ≠ datasetSubject → view.dimension ≠ name :=
    havoids.subject.resolve_left
  refine ⟨h.dataset_iff, fun hscope => ?_, hnames _ h.breakdown havoids.breakdown, ?_⟩
  · obtain ⟨entry, hentry, hname, hsuits⟩ := h.subject hscope
    have hne := hsubject (h.dataset_iff.not.2 hscope)
    exact ⟨entry, hrest entry hentry (hname ▸ hne), hname, hsuits⟩
  · intro filter hfilter
    have hattribute : view.HasSubjectAttribute doc filter.1 →
        view.HasSubjectAttribute rest filter.1 := by
      rintro ⟨hdataset, entry, hentry, hname, hattribute⟩
      exact ⟨hdataset, entry, hrest entry hentry (hname ▸ hsubject hdataset), hname, hattribute⟩
    rcases h.filters filter hfilter with hproperty | hfield | hpath
    · exact .inl hproperty
    · exact .inr (.inl (hattribute hfield))
    · rcases havoids.filters filter hfilter with hproperty | hfield | hne
      · exact .inl hproperty
      · exact .inr (.inl (hattribute hfield))
      · exact .inr (.inr (hnames filter.1 hpath hne))

/-- A path with a field of another dimension does not start with the name of this one. -/
theorem Schema.splitPath_ne_of_resolve? {schema : Schema}
    (hnames : (schema.dimensions.map Dimension.name).Nodup) {index : Nat} {d : Dimension}
    (hd : schema.dimensions[index]? = some d) {path : String} {field : Field}
    (hfield : schema.resolve? path = some field) (hne : field.dimension ≠ index) :
    (Schema.splitPath path).1 ≠ d.name := by
  intro hhead
  obtain ⟨other, hother, hname, -⟩ := (Schema.resolve?_eq_some_iff hnames).1 hfield
  have hindex := (Schema.dimensionIndex?_eq_some_iff hnames).2 ⟨d, hd, rfl⟩
  have hsame := (Schema.dimensionIndex?_eq_some_iff hnames).2 ⟨other, hother, hname.trans hhead⟩
  exact hne (Option.some.inj (hsame.symm.trans hindex))

namespace Validation

/-- A declared view can do without a dimension that the view does not use. -/
theorem Represents.avoids_of_unused {doc : Document} {schema : Schema} (h : Represents doc schema)
    {index : Nat} {d : Dimension} (hd : schema.dimensions[index]? = some d) {seen : List ViewKey}
    {scope : ViewScope} {spec : ViewSpec} {view : View}
    (hview : checkView schema seen scope spec = (some view, [])) (hunused : ¬ view.Uses index) :
    spec.Avoids doc scope d.name := by
  obtain ⟨hfits, -⟩ := (@checkView_eq_nil_iff _ _ h seen scope spec).1 (by rw [hview])
  have hfirst := congrArg Prod.fst hview
  simp only [checkView, Option.map_eq_some_iff] at hfirst
  obtain ⟨breakdown, hbreakdown, rfl⟩ := hfirst
  simp only [View.Uses, not_or, not_exists, not_and] at hunused
  obtain ⟨hsubject, hother, hfilters⟩ := hunused
  refine ⟨?_, Schema.splitPath_ne_of_resolve? h.names_nodup hd hbreakdown hother, ?_⟩
  · by_contra hboth
    rw [not_or, not_not] at hboth
    refine hsubject ?_
    rw [h.checkSubject_fst, if_neg hboth.1]
    exact (Schema.dimensionIndex?_eq_some_iff h.names_nodup).2 ⟨d, hd, hboth.2.symm⟩
  · rintro ⟨key, literal⟩ hfilter
    by_cases hproperty : key ∈ scope.propertyKeys
    · exact .inl hproperty
    by_cases hattribute : spec.HasSubjectAttribute doc key
    · exact .inr (.inl hattribute)
    -- the key is a path, so its filter is on the field of the path
    obtain ⟨field, hfield⟩ : ∃ field, schema.resolve? key = some field := by
      rw [← Option.isSome_iff_exists, h.isSome_resolve?]
      exact ((hfits.filters _ hfilter).resolve_left hproperty).resolve_left hattribute
    have hkey : filterOf? schema scope (checkSubject schema scope spec).1 key literal =
        some (.fact key field literal.display) := by
      rw [← isSome_scopeProperty?, Bool.not_eq_true, Option.isSome_eq_false_iff,
        Option.isNone_iff_eq_none] at hproperty
      rw [← @h.isSome_subjectAttribute? _ _ scope, Bool.not_eq_true, Option.isSome_eq_false_iff,
        Option.isNone_iff_eq_none] at hattribute
      simp only [filterOf?, hproperty, filterField?, hattribute, hfield, Option.map_some]
    refine .inr (.inr (Schema.splitPath_ne_of_resolve? h.names_nodup hd hfield ?_))
    refine hfilters key field literal.display ?_
    exact List.mem_filterMap.2 ⟨_, List.mem_map.2 ⟨(key, literal), hfilter, rfl⟩, hkey⟩

end Validation

/-! ## Documents without a dimension -/

namespace Document

open Validation

/-- A document without the dimensions of a name. -/
def without (doc : Document) (name : String) : Document :=
  { doc with dimensions := doc.dimensions.filter fun entry => entry.1 != name }

/-- The dimensions of a document without those of a name. -/
def others (doc : Document) (name : String) : List Dimension :=
  (checkDimensions [] (doc.without name).dimensions).dimensions

variable {doc : Document} {schema : Schema} {name : String}

theorem mem_without {entry : String × DimensionSpec} :
    entry ∈ (doc.without name).dimensions ↔ entry ∈ doc.dimensions ∧ entry.1 ≠ name := by
  rw [without, List.mem_filter, bne_iff_ne]

theorem dimensions_without {spec : DimensionSpec} {before after : List (String × DimensionSpec)}
    (hsplit : doc.dimensions = before ++ (name, spec) :: after)
    (hbefore : name ∉ before.map Prod.fst) (hafter : name ∉ after.map Prod.fst) :
    (doc.without name).dimensions = before ++ after := by
  have hkeep : ∀ {entries : List (String × DimensionSpec)}, name ∉ entries.map Prod.fst →
      entries.filter (fun entry => entry.1 != name) = entries := by
    intro entries hnot
    rw [List.filter_eq_self]
    exact fun entry hentry => bne_iff_ne.2 fun heq => hnot (heq ▸ List.mem_map_of_mem hentry)
  rw [without, hsplit, List.filter_append, List.filter_cons_of_neg (by simp), hkeep hbefore,
    hkeep hafter]

/-- The other declarations are without violations if all are. -/
theorem violations_without (h : doc.KeepsRules) :
    (checkDimensions [] (doc.without name).dimensions).violations = [] := by
  refine violations_checkDimensions_iff.2 ⟨?_, fun _ _ => List.not_mem_nil, ?_⟩
  · exact h.names_nodup.sublist (List.filter_sublist.map _)
  · exact fun entry hentry => h.dimensions entry (mem_without.1 hentry).1

theorem isDeclared_others (h : doc.KeepsRules) :
    List.Forall₂ IsDeclared (doc.without name).dimensions (doc.others name) :=
  forall₂_checkDimensions (violations_without h)

/-- Nothing is found in the mapping if entries whose path starts with the name are passed over. -/
theorem checkMapping_others (h : doc.KeepsRules) (hpoint : '.' ∉ name.toList)
    (violations : List Violation) :
    (checkMapping doc.mapping ⟨doc.others name, [name], violations⟩).2 = [] := by
  have hslots : Validation.slots (doc.others name) = (doc.without name).slots :=
    slotsFrom_of_stands ((isDeclared_others h).imp fun _ _ => IsDeclared.stands) 0
  have hpath : ∀ {other : Document} {path : String}, (∃ slot ∈ other.slots, slot.path = path) ↔
      ∃ entry ∈ other.dimensions, path ∈ entry.2.paths entry.1 := by
    intro other path
    rw [← List.mem_map, map_path_slots, List.mem_flatMap]
  rw [checkMapping_eq_nil_iff, hslots]
  refine ⟨h.columns, fun slot hslot => ?_, fun entry hentry => ?_⟩
  · obtain ⟨other, hother, hmem⟩ := hpath.1 ⟨slot, hslot, rfl⟩
    obtain ⟨slot', hslot', heq⟩ := hpath.2 ⟨other, (mem_without.1 hother).1, hmem⟩
    exact heq ▸ h.mapped slot' hslot'
  · obtain ⟨other, hother, hmem⟩ := hpath.1 (h.targets entry hentry)
    by_cases hname : other.1 = name
    · right
      rw [List.mem_singleton, DimensionSpec.head_of_mem_paths (hname ▸ hpoint) hmem, hname]
    · exact .inl (hpath.2 ⟨other, mem_without.2 ⟨hother, hname⟩, hmem⟩)

theorem checkRoles_others (h : doc.KeepsRules) : checkRoles (doc.others name) = [] :=
  (checkRoles_eq_nil_iff (isDeclared_others h)).2 fun entry hentry =>
    h.roles entry (mem_without.1 hentry).1

/-- The levels of the other classifiers are still distinct, whatever gaps are filled now. -/
theorem checkTaxonomies_others (h : doc.KeepsRules) : checkTaxonomies (doc.others name) = [] := by
  have hlevels : (doc.others name).filterMap leveled = (doc.without name).classifierLevels :=
    (filterMap_eq_of_forall₂ (isDeclared_others h) fun _ _ hentry => hentry.leveled_eq.symm).symm
  rw [checkTaxonomies_eq_nil_iff, hlevels]
  exact h.levels_nodup.sublist (List.filter_sublist.filterMap _)

/-- The views that do not use a dimension are sound without it. -/
theorem isSound_without (h : doc.validate = .ok schema) {index : Nat} {d : Dimension}
    (hd : schema.dimensions[index]? = some d) (hunused : ∀ view ∈ schema.views, ¬ view.Uses index) :
    ∀ view ∈ doc.views, view.IsSound (doc.without d.name) := by
  have hdeclarations := (accepted_of_validate h).declarations
  obtain ⟨rfl, hnone⟩ := check_of_validate h
  obtain ⟨-, hviews⟩ := List.append_eq_nil_iff.1 hnone
  intro spec hspec
  obtain ⟨position, hposition⟩ := List.mem_iff_getElem?.1 hspec
  obtain ⟨view, hview, scope, seen, hscope, hchecked⟩ :=
    exists_getElem?_of_forall₂ (forall₂_checkViews hviews).flip hposition
  -- views are checked in the schema without views
  have hrepresents : Represents doc { (check doc).1 with views := [] } :=
    represents_withLevels hdeclarations rfl
  obtain ⟨hfits, -⟩ := hrepresents.checkView_eq_nil_iff.1 (congrArg Prod.snd hchecked)
  refine ⟨scope, hscope, hfits.of_avoids (fun _ hentry hne => mem_without.2 ⟨hentry, hne⟩) ?_⟩
  exact hrepresents.avoids_of_unused hd hchecked (hunused view (List.mem_of_getElem? hview))

/-- Nothing is found in the views if none uses the dimension. -/
theorem checkViews_others (h : doc.validate = .ok schema) {index : Nat} {d : Dimension}
    (hd : schema.dimensions[index]? = some d) (hunused : ∀ view ∈ schema.views, ¬ view.Uses index)
    {bare : Schema} {taxonomies : List Taxonomy}
    (hbare : bare.dimensions = withLevels taxonomies (doc.others d.name)) :
    (checkViews bare [] doc.views).2 = [] := by
  have hrules := keepsAllRules_of_validate h
  have hrepresents : Represents (doc.without d.name) bare :=
    represents_withLevels (violations_without hrules.toKeepsRules) hbare
  exact hrepresents.checkViews_eq_nil_iff.2
    ⟨isSound_without h hd hunused, fun _ _ _ _ => List.not_mem_nil, hrules.views_nodup⟩

/-! ## Unknown kinds -/

/-- The first dimension of a name is the one that changes. -/
theorem changeDimension?_eq {spec : DimensionSpec} {before after : List (String × DimensionSpec)}
    (hsplit : doc.dimensions = before ++ (name, spec) :: after)
    (hbefore : name ∉ before.map Prod.fst) (change : DimensionSpec → DimensionSpec) :
    doc.changeDimension? change name =
      some { doc with dimensions := before ++ (name, change spec) :: after } := by
  have hskip : ∀ entry ∈ before, (entry.1 != name) = true := fun entry hentry =>
    bne_iff_ne.2 fun heq => hbefore (heq ▸ List.mem_map_of_mem hentry)
  rw [changeDimension?, hsplit, List.takeWhile_append_of_pos hskip,
    List.dropWhile_append_of_pos hskip]
  simp

/-- The kind of a dimension that no view uses is all that is reported if it is not known. -/
theorem check_unknownKind (h : doc.validate = .ok schema) {index : Nat} {d : Dimension}
    (hd : schema.dimensions[index]? = some d) (hpoint : '.' ∉ d.name.toList)
    (hunused : ∀ view ∈ schema.views, ¬ view.Uses index) {spec : DimensionSpec}
    {before after : List (String × DimensionSpec)}
    (hsplit : doc.dimensions = before ++ (d.name, spec) :: after)
    (hbefore : d.name ∉ before.map Prod.fst) (hafter : d.name ∉ after.map Prod.fst)
    {kind : String} (hkind : DimensionKind.ofName? kind = none) :
    (check { doc with
      dimensions := before ++ (d.name, { spec with kind := kind }) :: after }).2 =
        [.unknownDimensionKind d.name kind] := by
  have hrules := (keepsAllRules_of_validate h).toKeepsRules
  have hdeclared : checkDimensions [] (before ++ (d.name, { spec with kind := kind }) :: after) =
      ⟨doc.others d.name, [d.name], [.unknownDimensionKind d.name kind]⟩ := by
    have hnone := @violations_without doc d.name hrules
    rw [others, dimensions_without hsplit hbefore hafter]
    rw [dimensions_without hsplit hbefore hafter] at hnone
    exact checkDimensions_unknownKind hkind List.not_mem_nil hbefore hafter hnone
  have hdataset : checkDataset doc.dataset = [] :=
    checkDataset_eq_nil_iff.2 hrules.dataset_named
  simp only [check, hdeclared, hdataset, checkMapping_others hrules hpoint,
    checkRoles_others hrules, checkTaxonomies_others hrules, List.nil_append, List.append_nil]
  rw [checkViews_others h hd hunused rfl, List.append_nil]

/-- If a dimension of an accepted document gets an unknown kind, its kind is all that is reported,
as long as its name has no point and no view uses it. -/
theorem validate_unknownKind (h : doc.validate = .ok schema) {index : Nat} {d : Dimension}
    (hd : schema.dimensions[index]? = some d) (hpoint : '.' ∉ d.name.toList)
    (hunused : ∀ view ∈ schema.views, ¬ view.Uses index) {kind : String}
    (hkind : DimensionKind.ofName? kind = none) :
    ∃ changed,
      doc.changeDimension? (fun spec => { spec with kind := kind }) d.name = some changed ∧
        changed.validate = .error ⟨doc.dataset.name, [.unknownDimensionKind d.name kind]⟩ := by
  obtain ⟨⟨name, spec⟩, hentry, hstands, -⟩ := (represents_of_validate h).exists_entry hd
  obtain rfl : d.name = name := hstands.name_eq
  obtain ⟨before, after, hsplit⟩ := List.append_of_mem hentry
  have hnodup := (keepsAllRules_of_validate h).names_nodup
  rw [hsplit, List.map_append, List.map_cons, List.nodup_middle, List.nodup_cons,
    List.mem_append, not_or] at hnodup
  obtain ⟨⟨hbefore, hafter⟩, -⟩ := hnodup
  refine ⟨_, changeDimension?_eq hsplit hbefore _, ?_⟩
  have hfound := check_unknownKind h hd hpoint hunused hsplit hbefore hafter hkind
  simp only [validate, hfound, List.isEmpty_cons, Bool.false_eq_true, if_false]

end Document

/-! ## A rejected classifier -/

namespace Sample

/-- The document of two taxonomies with a view on its parishes, by county. -/
def parishesDocument : Document :=
  { placesDocument with views := [⟨"classifier", "Parishes", "parishes", "parish", "county", []⟩] }

def parishesView : View where
  scope := .classifier
  name := "parishes"
  label := "Parishes"
  subject? := some 3
  dimension := "parish"
  breakdown := .component 2 0
  breakdownName := "county"
  filters := []

def parishesSchema : Schema := { placesSchema with views := [parishesView] }

theorem validate_parishes : parishesDocument.validate = .ok parishesSchema := by
  cbv

end Sample

-- without the ward, the parish takes the first level and both dimensions of the view move up
theorem Document.validate_unknownKind_sample :
    Sample.parishesDocument.validate = .ok Sample.parishesSchema ∧
      Sample.parishesSchema.dimensions[0]? = some (Sample.classifier "ward" "place" 1) ∧
      '.' ∉ "ward".toList ∧ (∀ view ∈ Sample.parishesSchema.views, ¬ view.Uses 0) ∧
      DimensionKind.ofName? "area" = none ∧
      ∃ changed, Sample.parishesDocument.changeDimension?
          (fun spec => { spec with kind := "area" }) "ward" = some changed ∧
        changed.validate = .error ⟨"places", [.unknownDimensionKind "ward" "area"]⟩ := by
  have hpoint : '.' ∉ "ward".toList := by simp
  have hunused : ∀ view ∈ Sample.parishesSchema.views, ¬ view.Uses 0 := by
    refine List.forall_mem_singleton.2 ?_
    simp [View.Uses, Sample.parishesView, Field.dimension]
  exact ⟨Sample.validate_parishes, rfl, hpoint, hunused, rfl,
    Document.validate_unknownKind Sample.validate_parishes rfl hpoint hunused rfl⟩

end FactCube
