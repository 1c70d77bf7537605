import FactCube.Cube.View
import FactCube.Proofs.Acceptance

/-!
# Validated views

A view of a validated schema has a breakdown that its path names. It is about the dataset and has no
members, or it is about a dimension whose members have names. So its plan is settled by the fields it
compares with texts: its filters on facts and, for a member, the name of its subject. A filter is on
an attribute of the subject or on a field that its key names, and each of these fields has a path,
unless the subject has a point in its name.

Results:
* `View.scopeMatches_iff`: the scopes in which the scope filters of a view match.
* `View.WellFormed.plan_eq`: the plan of a validated view.
* `Document.wellFormed_view`: what validation has made sure of in a view.
* `Document.view?_of_mem`: every view is found.
* `View.WellFormed.resolve?_pathOf`: the paths of the compared fields.
-/

namespace FactCube

namespace View

/-! ## The scope of a view -/

/-- Whether a view is restricted to a scope in which a property has a text. -/
def Expects (view : View) (property : ScopeProperty) (text : String) : Prop :=
  ∃ key, .scope key property text ∈ view.filters

/-- Whether a view is restricted to a scope like its own: to the name, label and currency of the
dataset, and to the taxonomy of its subject. -/
structure MatchesScope (schema : Schema) (view : View) : Prop where
  name : ∀ text, view.Expects .datasetName text → schema.dataset.name = text
  label : ∀ text, view.Expects .datasetLabel text → schema.dataset.label = text
  currency : ∀ text, view.Expects .datasetCurrency text → schema.dataset.currency = text
  taxonomy : ∀ text, view.Expects .taxonomy text → ∃ index d, view.subject? = some index ∧
    schema.dimensions[index]? = some d ∧ d.taxonomy? = some text

theorem taxonomyText?_eq_some_iff {schema : Schema} {view : View} {text : String} :
    propertyText? schema view .taxonomy = some text ↔ ∃ index d, view.subject? = some index ∧
      schema.dimensions[index]? = some d ∧ d.taxonomy? = some text := by
  simp only [propertyText?, Option.bind_eq_some_iff, exists_and_left]

theorem scopeMatches_eq_true_iff {schema : Schema} {view : View} :
    scopeMatches schema view = true ↔
      ∀ property text, view.Expects property text →
        propertyText? schema view property = some text := by
  rw [scopeMatches, List.all_eq_true]
  constructor
  · rintro h property text ⟨key, hfilter⟩
    exact eq_of_beq (h _ hfilter)
  · intro h filter hfilter
    cases filter with
    | scope key property text => exact beq_iff_eq.2 (h property text ⟨key, hfilter⟩)
    | fact key field text => rfl

/-- The scope filters of a view match iff it is restricted to a scope like its own. -/
theorem scopeMatches_iff {schema : Schema} {view : View} :
    scopeMatches schema view = true ↔ view.MatchesScope schema := by
  rw [scopeMatches_eq_true_iff]
  constructor
  · intro h
    exact ⟨fun text hname => Option.some.inj (h _ text hname),
      fun text hlabel => Option.some.inj (h _ text hlabel),
      fun text hcurrency => Option.some.inj (h _ text hcurrency),
      fun text htaxonomy => taxonomyText?_eq_some_iff.1 (h _ text htaxonomy)⟩
  · intro h property text hexpects
    cases property with
    | datasetName => exact congrArg some (h.name text hexpects)
    | datasetLabel => exact congrArg some (h.label text hexpects)
    | datasetCurrency => exact congrArg some (h.currency text hexpects)
    | taxonomy => exact taxonomyText?_eq_some_iff.2 (h.taxonomy text hexpects)

/-! ## Comparisons of a view -/

/-- The fields that a view compares with texts, and the texts. -/
def factTexts (view : View) : List (Field × String) :=
  view.filters.filterMap fun
    | .fact _ field expected => some (field, expected)
    | .scope _ _ _ => none

/-- The field of an attribute of the subject of a view. -/
def subjectField? (schema : Schema) (view : View) (name : String) : Option Field :=
  view.subject?.bind fun index =>
    (schema.dimensions[index]?).bind fun d =>
      (d.attributeIndex? name).map fun position => .component index position

/-- What a view for a member compares: its own fields, and the name of the subject with that of the
member. -/
def comparisons (schema : Schema) (view : View) (member? : Option String) :
    List (Field × String) :=
  view.factTexts ++
    ((view.subjectField? schema nameAttribute).bind fun field =>
      member?.map fun member => (field, member)).toList

theorem mem_factTexts_iff {view : View} {field : Field} {text : String} :
    (field, text) ∈ view.factTexts ↔ ∃ key, .fact key field text ∈ view.filters := by
  rw [factTexts, List.mem_filterMap]
  constructor
  · rintro ⟨filter, hfilter, heq⟩
    cases filter with
    | scope key property expected => cases heq
    | fact key other expected =>
      cases heq
      exact ⟨key, hfilter⟩
  · rintro ⟨key, hfilter⟩
    exact ⟨_, hfilter, rfl⟩

/-- What a view for a member compares are the fields of its filters and the name of its subject. -/
theorem mem_comparisons {schema : Schema} {view : View} {member? : Option String} {field : Field}
    {text : String} (h : (field, text) ∈ view.comparisons schema member?) :
    (∃ key, .fact key field text ∈ view.filters) ∨
      view.subjectField? schema nameAttribute = some field ∧ member? = some text := by
  rcases List.mem_append.1 h with hfact | hmember
  · exact .inl (mem_factTexts_iff.1 hfact)
  · simp only [Option.mem_toList, Option.bind_eq_some_iff, Option.map_eq_some_iff,
      Prod.mk.injEq] at hmember
    obtain ⟨_, hfield, _, hmember, rfl, rfl⟩ := hmember
    exact .inr ⟨hfield, hmember⟩

theorem factFilters_eq (view : View) :
    factFilters view = view.factTexts.map fun c => ⟨c.1, .text c.2⟩ := by
  rw [factFilters, factTexts, List.map_filterMap]
  refine List.filterMap_congr fun filter _ => ?_
  cases filter <;> rfl

/-- The plan of a view that compares some fields with texts. -/
def planOf (schema : Schema) (view : View) (compared : List (Field × String)) : Plan where
  drilldownNames := [view.breakdownName]
  drilldowns := [view.breakdown]
  cuts := []
  filters := compared.map fun c => ⟨c.1, .text c.2⟩
  slice := []
  measures := Query.allMeasures schema
  order := []
  page := 1
  pageSize? := none
  collection? := none

theorem isEmpty_allMeasures {schema : Schema} (h : schema.measures ≠ []) :
    (Query.allMeasures schema).isEmpty = false := by
  rw [Query.allMeasures, List.isEmpty_map]
  simpa using h

/-- The plan of a view. -/
theorem plan_eq {schema : Schema} {view : View} {member? : Option String}
    (hmeasures : schema.measures ≠ [])
    (hmember : member?.isSome = true →
      (view.subjectField? schema nameAttribute).isSome = true) :
    view.plan schema member? = .ok (view.planOf schema (view.comparisons schema member?)) := by
  rw [plan]
  simp only [isEmpty_allMeasures hmeasures, Bool.false_eq_true, if_false]
  cases member? with
  | none =>
    have hnone : view.comparisons schema none = view.factTexts := by
      rw [comparisons]
      cases view.subjectField? schema nameAttribute <;> exact List.append_nil _
    rw [hnone, planOf, ← factFilters_eq]
    exact congrArg
      (fun filters => (.ok { view.planOf schema [] with filters := filters } :
        Except ViewFault Plan)) (List.append_nil _)
  | some member =>
    obtain ⟨field, hfield⟩ := Option.isSome_iff_exists.1 (hmember rfl)
    have hfilter : memberFilter schema view member = .ok ⟨field, .text member⟩ := by
      rw [subjectField?] at hfield
      rw [memberFilter]
      obtain ⟨index, hindex, hfield⟩ := Option.bind_eq_some_iff.1 hfield
      obtain ⟨d, hd, hfield⟩ := Option.bind_eq_some_iff.1 hfield
      obtain ⟨position, hposition, rfl⟩ := Option.map_eq_some_iff.1 hfield
      simp only [hindex, hd, Option.bind_some, hposition]
    rw [planOf, comparisons, hfield, List.map_append, ← factFilters_eq]
    simp only [hfilter]
    rfl

/-- A view without members has no plan for one. -/
theorem plan_of_subject_eq_none {schema : Schema} {view : View} (hmeasures : schema.measures ≠ [])
    (hsubject : view.subject? = none) (member : String) :
    view.plan schema (some member) =
      .error (.unsuitable view.name (view.scope.name ++ " views have no members")) := by
  rw [plan]
  simp only [isEmpty_allMeasures hmeasures, Bool.false_eq_true, if_false, memberFilter, hsubject]
  rfl

end View

/-! ## Validated views -/

/-- What validation has made sure of in a view. -/
structure View.WellFormed (schema : Schema) (view : View) : Prop where
  /-- The breakdown is the field that its path names. -/
  breakdown : schema.resolve? view.breakdownName = some view.breakdown
  /-- A view is about the dataset or about a dimension whose members have names. -/
  subject : view.scope = .dataset ∧ view.subject? = none ∨
    view.scope ≠ .dataset ∧ ∃ (index : Nat) (d : Dimension) (position : Nat),
      view.subject? = some index ∧ schema.dimensions[index]? = some d ∧
        d.name = view.dimension ∧ d.attributeIndex? nameAttribute = some position
  /-- A filter on facts is on an attribute of the subject or on a field that a path names. -/
  filters : ∀ key field expected, .fact key field expected ∈ view.filters →
    Validation.filterField? schema view.subject? key = some field

/-- The plan of a well-formed view. Only a view about the dataset has none, for a member. -/
theorem View.WellFormed.plan_eq {schema : Schema} {view : View} (h : view.WellFormed schema)
    (hmeasures : schema.measures ≠ []) (member? : Option String) :
    view.plan schema member? =
      if view.scope = .dataset ∧ member?.isSome = true then
        .error (.unsuitable view.name "dataset views have no members")
      else .ok (view.planOf schema (view.comparisons schema member?)) := by
  rcases h.subject with ⟨hscope, hnone⟩ | ⟨hscope, index, d, position, hindex, hd, -, hposition⟩
  · cases member? with
    | none =>
      rw [if_neg fun hboth => Bool.false_ne_true hboth.2]
      exact View.plan_eq hmeasures fun hmember => absurd hmember Bool.false_ne_true
    | some member =>
      rw [if_pos ⟨hscope, rfl⟩, View.plan_of_subject_eq_none hmeasures hnone, hscope]
      rfl
  · rw [if_neg fun hboth => hscope hboth.1]
    refine View.plan_eq hmeasures fun _ => ?_
    rw [View.subjectField?, hindex, Option.bind_some, hd, Option.bind_some, hposition]
    rfl

namespace Validation

/-- Without violations every declaration of a view has a known scope and becomes a view, in
order. -/
theorem forall₂_checkViews {schema : Schema} {seen : List ViewKey} {specs : List ViewSpec}
    (h : (checkViews schema seen specs).2 = []) :
    List.Forall₂
      (fun spec view => ∃ scope seen', ViewScope.ofName? spec.entity = some scope ∧
        checkView schema seen' scope spec = (some view, []))
      specs (checkViews schema seen specs).1 := by
  induction specs generalizing seen with
  | nil => exact .nil
  | cons spec specs ih =>
    rw [checkViews] at h ⊢
    cases hscope : ViewScope.ofName? spec.entity with
    | none => simp [hscope] at h
    | some scope =>
      simp only [hscope, List.append_eq_nil_iff] at h ⊢
      have hview : (checkView schema seen scope spec).1.isSome = true := by
        have hnone := h.1
        rw [checkView] at hnone ⊢
        cases hbreakdown : schema.resolve? spec.breakdown with
        | none => simp [hbreakdown] at hnone
        | some breakdown => rfl
      obtain ⟨view, hview⟩ := Option.isSome_iff_exists.1 hview
      rw [hview]
      exact .cons ⟨scope, seen, hscope, Prod.ext hview h.1⟩ (ih h.2)

theorem exists_checkView_of_mem {schema : Schema} {seen : List ViewKey} {specs : List ViewSpec}
    (h : (checkViews schema seen specs).2 = []) {view : View}
    (hview : view ∈ (checkViews schema seen specs).1) :
    ∃ spec seen' scope, checkView schema seen' scope spec = (some view, []) := by
  obtain ⟨i, hi⟩ := List.mem_iff_getElem?.1 hview
  obtain ⟨spec, -, scope, seen', -, hchecked⟩ :=
    exists_getElem?_of_forall₂ (forall₂_checkViews h) hi
  exact ⟨spec, seen', scope, hchecked⟩

/-- What identifies a view of a schema. -/
def keyOf (view : View) : ViewKey := (view.scope, view.dimension, view.name)

/-- Views without violations have distinct keys, none of which was seen before. -/
theorem nodup_checkViews {schema : Schema} {seen : List ViewKey} {specs : List ViewSpec}
    (h : (checkViews schema seen specs).2 = []) :
    ((checkViews schema seen specs).1.map keyOf).Nodup ∧
      ∀ view ∈ (checkViews schema seen specs).1, keyOf view ∉ seen := by
  induction specs generalizing seen with
  | nil => exact ⟨List.nodup_nil, List.forall_mem_nil _⟩
  | cons spec specs ih =>
    rw [checkViews] at h ⊢
    cases hscope : ViewScope.ofName? spec.entity with
    | none => simp [hscope] at h
    | some scope =>
      simp only [hscope, List.append_eq_nil_iff] at h ⊢
      obtain ⟨hnodup, hnew⟩ := ih h.2
      have hkey : ∀ view, (checkView schema seen scope spec).1 = some view →
          keyOf view = (scope, spec.dimension, spec.name) := by
        intro view hview
        simp only [checkView, Option.map_eq_some_iff] at hview
        obtain ⟨breakdown, -, rfl⟩ := hview
        rfl
      have hunseen : (scope, spec.dimension, spec.name) ∉ seen := by
        simp only [checkView, List.append_eq_nil_iff] at h
        simpa using h.1.2
      cases hfirst : (checkView schema seen scope spec).1 with
      | none =>
        exact ⟨hnodup, fun view hview hmem => hnew view hview (List.mem_cons_of_mem _ hmem)⟩
      | some view =>
        rw [Option.toList_some, List.singleton_append, List.map_cons, List.nodup_cons,
          List.forall_mem_cons, hkey view hfirst]
        refine ⟨⟨fun hmem => ?_, hnodup⟩, hunseen, fun other hother hmem =>
          hnew other hother (List.mem_cons_of_mem _ hmem)⟩
        obtain ⟨other, hother, heq⟩ := List.mem_map.1 hmem
        exact hnew other hother (heq ▸ List.mem_cons_self)

/-- The subject of a view that is not about the dataset has a name attribute. -/
theorem Represents.exists_subject {doc : Document} {schema : Schema} (h : Represents doc schema)
    (hsound : ∀ entry ∈ doc.dimensions, entry.2.IsSound) {scope : ViewScope} {dimension : String}
    (hsubject : ViewSpec.IsSubject doc scope dimension) :
    ∃ (index : Nat) (d : Dimension) (position : Nat),
      schema.dimensionIndex? dimension = some index ∧ schema.dimensions[index]? = some d ∧
        d.name = dimension ∧ d.attributeIndex? nameAttribute = some position := by
  obtain ⟨entry, hentry, rfl, kind, hkind, hsuits⟩ := hsubject
  obtain ⟨index, d, hd, hstands, -⟩ := h.exists_dimension hentry
  have hcompound : entry.2.isCompound = true := by
    rw [DimensionSpec.isCompound, hkind, Option.any_some]
    cases scope <;> cases kind <;> first | rfl | cases hsuits
  obtain ⟨position, hposition⟩ := hstands.exists_nameIndex (hsound entry hentry) hcompound
  exact ⟨index, d, position,
    (Schema.dimensionIndex?_eq_some_iff h.names_nodup).2 ⟨d, hd, hstands.name_eq⟩, hd,
    hstands.name_eq, hposition⟩

theorem filterField?_of_mem_checkFilters {schema : Schema} {scope : ViewScope}
    {subject? : Option Nat} {spec : ViewSpec} {key : String} {field : Field} {expected : String}
    (h : .fact key field expected ∈ (checkFilters schema scope subject? spec).1) :
    filterField? schema subject? key = some field := by
  simp only [checkFilters, List.mem_filterMap, List.mem_map] at h
  obtain ⟨_, ⟨⟨key', literal⟩, -, rfl⟩, hfilter⟩ := h
  simp only [filterOf?] at hfilter
  split at hfilter
  · cases hfilter
  · obtain ⟨found, hfound, heq⟩ := Option.map_eq_some_iff.1 hfilter
    cases heq
    exact hfound

/-- A checked view without violations is well formed. -/
theorem Represents.wellFormed_checkView {doc : Document} {schema : Schema}
    (h : Represents doc schema) (hsound : ∀ entry ∈ doc.dimensions, entry.2.IsSound)
    {seen : List ViewKey} {scope : ViewScope} {spec : ViewSpec} {view : View}
    (hview : checkView schema seen scope spec = (some view, [])) : view.WellFormed schema := by
  obtain ⟨hfits, -⟩ := (@checkView_eq_nil_iff _ _ h seen scope spec).1 (by rw [hview])
  have hfirst := congrArg Prod.fst hview
  simp only [checkView, Option.map_eq_some_iff] at hfirst
  obtain ⟨breakdown, hbreakdown, rfl⟩ := hfirst
  refine ⟨hbreakdown, ?_, fun key field expected => filterField?_of_mem_checkFilters⟩
  simp only [h.checkSubject_fst]
  by_cases hscope : scope = .dataset
  · exact .inl ⟨hscope, if_pos (hfits.dataset_iff.2 hscope)⟩
  · obtain ⟨index, d, position, hindex, hd, hname, hposition⟩ :=
      h.exists_subject hsound (hfits.subject hscope)
    refine .inr ⟨hscope, index, d, position, ?_, hd, hname, hposition⟩
    rw [if_neg (hfits.dataset_iff.not.2 hscope), hindex]

end Validation

/-- The views of a validated schema are well formed. -/
theorem Document.wellFormed_view {doc : Document} {schema : Schema}
    (hvalid : doc.validate = .ok schema) {view : View} (hview : view ∈ schema.views) :
    view.WellFormed schema := by
  have haccepted := Document.accepted_of_validate hvalid
  obtain ⟨rfl, hnone⟩ := Document.check_of_validate hvalid
  have hrules := Document.check_eq_nil_iff.1 hnone
  obtain ⟨-, hviews⟩ := List.append_eq_nil_iff.1 hnone
  obtain ⟨spec, seen, scope, hchecked⟩ := Validation.exists_checkView_of_mem hviews hview
  -- views are checked in the schema without views, whose fields are the same
  obtain ⟨hbreakdown, hsubject, hfilters⟩ :=
    @Validation.Represents.wellFormed_checkView doc _
      (by exact Validation.represents_withLevels haccepted.declarations rfl) hrules.dimensions
      _ _ _ _ hchecked
  exact ⟨hbreakdown, hsubject, hfilters⟩

/-- Every view of a validated schema is found under its scope, its name and its dimension. -/
theorem Document.view?_of_mem {doc : Document} {schema : Schema}
    (hvalid : doc.validate = .ok schema) {view : View} (hview : view ∈ schema.views) :
    schema.view? view.scope.name view.name (some view.dimension) = some view := by
  obtain ⟨rfl, hnone⟩ := Document.check_of_validate hvalid
  obtain ⟨-, hviews⟩ := List.append_eq_nil_iff.1 hnone
  cases hfound : (Validation.check doc).1.view? view.scope.name view.name (some view.dimension) with
  | none =>
    have hno := List.find?_eq_none.1 hfound view hview
    simp at hno
  | some found =>
    have hsame := List.find?_some hfound
    simp only [Bool.and_eq_true, beq_iff_eq] at hsame
    obtain ⟨⟨hscope, hname⟩, hdimension⟩ := hsame
    have hscope : found.scope = view.scope := by
      cases hf : found.scope <;> cases hv : view.scope <;>
        first | rfl | (rw [hf, hv] at hscope; exact absurd hscope (by decide))
    have hkey : Validation.keyOf found = Validation.keyOf view := by
      rw [Validation.keyOf, Validation.keyOf, hscope, hname, hdimension]
    rw [List.inj_on_of_nodup_map (Validation.nodup_checkViews hviews).1
      (List.mem_of_find?_eq_some hfound) hview hkey]

/-! ## Paths of compared fields -/

namespace View.WellFormed

variable {schema : Schema} {view : View}

/-- An attribute of the subject has a path if the dimension of the view has one. -/
theorem resolve?_subjectField (hnames : (schema.dimensions.map Dimension.name).Nodup)
    (h : view.WellFormed schema) (hpoint : '.' ∉ view.dimension.toList) {name : String}
    {field : Field} (hfield : view.subjectField? schema name = some field) :
    schema.resolve? (schema.pathOf field) = some field := by
  rw [subjectField?] at hfield
  rcases h.subject with ⟨-, hnone⟩ | ⟨-, index, d, -, hindex, hd, hname, -⟩
  · rw [hnone] at hfield
    cases hfield
  · rw [hindex, Option.bind_some, hd, Option.bind_some, Option.map_eq_some_iff] at hfield
    obtain ⟨position, hposition, rfl⟩ := hfield
    exact Schema.resolve?_pathOf_component hnames hd (hname ▸ hpoint) hposition

/-- The compared fields have paths of their own if the dimension of the view has one. -/
theorem resolve?_pathOf (hnames : (schema.dimensions.map Dimension.name).Nodup)
    (h : view.WellFormed schema) (hpoint : '.' ∉ view.dimension.toList) {member? : Option String}
    {compared : Field × String} (hcompared : compared ∈ view.comparisons schema member?) :
    schema.resolve? (schema.pathOf compared.1) = some compared.1 := by
  obtain ⟨field, text⟩ := compared
  rcases View.mem_comparisons hcompared with ⟨key, hfilter⟩ | ⟨hfield, -⟩
  · have hfield := h.filters key field text hfilter
    rw [Validation.filterField?] at hfield
    split at hfield
    · rename_i found hfound
      cases hfield
      exact h.resolve?_subjectField hnames hpoint hfound
    · exact Schema.resolve?_pathOf_of_resolve? hnames hfield
  · exact h.resolve?_subjectField hnames hpoint hfield

end View.WellFormed

end FactCube
