import FactCube.Proofs.Paths

/-!
# The rules for documents

What a document has to look like can be said about its declarations alone, without the schema that
validation builds: which declarations of dimensions are sound, which paths name a place of a fact,
which mapping entries and views fit them. The passes of validation are then taken one by one: each
finds nothing exactly if its rules are kept.

Results:
* `DimensionSpec.IsSound`, `ViewSpec.IsSound`, `Document.KeepsRules`: the rules.
* `Validation.violations_checkDimensions_iff`, `checkMapping_eq_nil_iff`, `checkRoles_eq_nil_iff`:
  dimensions, mapping, and keys with measures.
-/

namespace FactCube

open Validation (Slot)

/-! ## Rules for dimensions -/

namespace DimensionSpec

/-- The datatype of the text that identifies a member: that of a scalar dimension, or of the first
name attribute of a compound one. -/
def keyType? (spec : DimensionSpec) : Option DataType :=
  if spec.isCompound then
    (spec.attributes.find? fun a => a.1 == nameAttribute).map fun a =>
      declaredType (some a.2.datatype)
  else some (declaredType spec.datatype?)

/-- The level a text stands for, a 32-bit count. -/
def levelOf? (literal : Literal) : Option Nat :=
  Decimal.count? Decimal.greatest32 (Text.trim literal.display.toList)

/-- Whether a dimension is declared as it should be, as far as it stands for itself. -/
structure IsSound (spec : DimensionSpec) : Prop where
  kind_known : ∃ kind, DimensionKind.ofName? spec.kind = some kind
  datatype_known : spec.isCompound = false →
    ∃ raw datatype, spec.datatype? = some raw ∧ DataType.ofText? raw = some datatype
  named : spec.isCompound = true → nameAttribute ∈ spec.attributes.map Prod.fst
  attributes_known : spec.isCompound = true → ∀ a ∈ spec.attributes,
    ∃ datatype, DataType.ofText? a.2.datatype = some datatype
  defaults_read : ∀ declared ∈ spec.defaults, ∀ literal, declared.2 = some literal →
    ∃ v, Value.ofText declared.1 literal.display = .ok v
  level_read : ∀ literal, spec.level? = some literal → ∃ level, levelOf? literal = some level

/-- Whether a key is named by strings and a measure holds numbers. -/
structure IsSuited (spec : DimensionSpec) : Prop where
  key : spec.key = true → spec.keyType? = some .string
  measure : DimensionKind.ofName? spec.kind = some .measure →
    (declaredType spec.datatype?).isNumeric = true

/-- Whether the rest of a path names something in a dimension: nothing more in a scalar one, a part
of a date, or an attribute, the name attribute if there is no rest. -/
inductive HasPart (spec : DimensionSpec) : Option String → Prop
  | scalar : spec.isCompound = false → HasPart spec none
  | datePart {part : String} : spec.isCompound = false → declaredType spec.datatype? = .date →
    part ∈ ["year", "month", "yearmonth"] → HasPart spec (some part)
  | attribute {tail : Option String} : spec.isCompound = true →
    tail.getD nameAttribute ∈ spec.attributes.map Prod.fst → HasPart spec tail

end DimensionSpec

/-! ## Rules for views -/

/-- Whether a path names a place of the facts of a document. -/
def Document.Names (doc : Document) (path : String) : Prop :=
  ∃ entry ∈ doc.dimensions, entry.1 = (Schema.splitPath path).1 ∧
    entry.2.HasPart (Schema.splitPath path).2

theorem ViewScope.name_of_ofName? {s : String} {scope : ViewScope}
    (h : ViewScope.ofName? s = some scope) : scope.name = s := by
  rw [ViewScope.ofName?] at h
  simpa using List.find?_some h

/-- The keys of filters that name a property of a scope. -/
def ViewScope.propertyKeys : ViewScope → List String
  | .dataset => ["name", "label", "currency"]
  | .classifier => ["taxonomy"]
  | .entity => []

namespace ViewSpec

/-- Whether a dimension is what a view of a scope is about. -/
def IsSubject (doc : Document) (scope : ViewScope) (dimension : String) : Prop :=
  ∃ entry ∈ doc.dimensions, entry.1 = dimension ∧
    ∃ kind, DimensionKind.ofName? entry.2.kind = some kind ∧ Validation.suits scope kind = true

/-- Whether a filter key names an attribute of the dimension a view is about. -/
def HasSubjectAttribute (doc : Document) (view : ViewSpec) (key : String) : Prop :=
  view.dimension ≠ datasetSubject ∧
    ∃ entry ∈ doc.dimensions, entry.1 = view.dimension ∧ entry.2.isCompound = true ∧
      key ∈ entry.2.attributes.map Prod.fst

/-- Whether a view of a scope fits the dimensions of its document: the subject is `dataset` exactly
for the dataset scope and else a dimension of the scope's kind, the breakdown is a path, and every
filter key is a property of the scope, an attribute of the subject or a path. -/
structure FitsScope (doc : Document) (scope : ViewScope) (view : ViewSpec) : Prop where
  dataset_iff : view.dimension = datasetSubject ↔ scope = .dataset
  subject : scope ≠ .dataset → IsSubject doc scope view.dimension
  breakdown : doc.Names view.breakdown
  filters : ∀ filter ∈ view.filters, filter.1 ∈ scope.propertyKeys ∨
    view.HasSubjectAttribute doc filter.1 ∨ doc.Names filter.1

/-- Whether a view has a known scope and fits it. -/
def IsSound (doc : Document) (view : ViewSpec) : Prop :=
  ∃ scope, ViewScope.ofName? view.entity = some scope ∧ view.FitsScope doc scope

end ViewSpec

/-! ## Rules for documents -/

namespace Document

/-- The levels that classifiers declare, each with its taxonomy; a classifier without one forms its
own. -/
def classifierLevels (doc : Document) : List (String × Nat) :=
  doc.dimensions.filterMap fun (name, spec) =>
    if DimensionKind.ofName? spec.kind = some .classifier then
      (spec.level?.bind DimensionSpec.levelOf?).map fun level => (spec.taxonomy?.getD name, level)
    else none

/-- The rules for a document, except that views may still repeat each other. -/
structure KeepsRules (doc : Document) : Prop where
  dataset_named : Text.isBlankText doc.dataset.name = false
  names_nodup : (doc.dimensions.map Prod.fst).Nodup
  dimensions : ∀ entry ∈ doc.dimensions, entry.2.IsSound
  columns : ∀ entry ∈ doc.mapping, Text.isBlankText entry.2 = false
  mapped : ∀ slot ∈ doc.slots, ∃ column, Validation.columnsOf doc.mapping slot.path = [column]
  targets : ∀ entry ∈ doc.mapping, ∃ slot ∈ doc.slots, slot.path = entry.1
  roles : ∀ entry ∈ doc.dimensions, entry.2.IsSuited
  levels_nodup : doc.classifierLevels.Nodup
  views : ∀ view ∈ doc.views, view.IsSound doc

/-- The rules for a document: no two views of one scope and dimension have the same name either. -/
structure KeepsAllRules (doc : Document) : Prop extends doc.KeepsRules where
  views_nodup : (doc.views.map fun view => (view.entity, view.dimension, view.name)).Nodup

end Document

namespace Validation

/-! ## Dimensions -/

theorem checkDatatype_eq_nil_iff {path raw : String} :
    (Validation.checkDatatype path raw).2 = [] ↔
      ∃ datatype, DataType.ofText? raw = some datatype := by
  rw [Validation.checkDatatype]
  cases DataType.ofText? raw <;> simp

theorem checkDefault_eq_nil_iff {path : String} {literal? : Option Literal} {datatype : DataType} :
    (checkDefault path literal? datatype).2 = [] ↔
      ∀ literal, literal? = some literal → ∃ v, Value.ofText datatype literal.display = .ok v := by
  cases literal? with
  | none => simp [checkDefault]
  | some literal =>
    rw [checkDefault]
    cases hvalue : Value.ofText datatype literal.display <;> simp [hvalue]

theorem checkLevel_eq_nil_iff {name : String} {level? : Option Literal} :
    (checkLevel name level?).2 = [] ↔
      ∀ literal, level? = some literal → ∃ level, DimensionSpec.levelOf? literal = some level := by
  cases level? with
  | none => simp [checkLevel]
  | some literal =>
    rw [checkLevel, ← DimensionSpec.levelOf?]
    cases hlevel : DimensionSpec.levelOf? literal <;> simp [hlevel]

theorem checkAttributeNames_eq_nil_iff {dimension : String}
    {attributes : List (String × AttributeSpec)} :
    checkAttributeNames dimension attributes = [] ↔
      nameAttribute ∈ attributes.map Prod.fst := by
  rw [checkAttributeNames]
  split
  · rename_i hempty
    simp [List.isEmpty_iff.1 hempty]
  · split
    · rename_i hany
      obtain ⟨a, ha, hname⟩ := List.any_eq_true.1 hany
      exact iff_of_true rfl (List.mem_map.2 ⟨a, ha, eq_of_beq hname⟩)
    · rename_i hany
      refine iff_of_false (List.cons_ne_nil _ _) fun hmem => hany ?_
      obtain ⟨a, ha, hname⟩ := List.mem_map.1 hmem
      exact List.any_eq_true.2 ⟨a, ha, by simp [hname]⟩

/-- The content of a dimension is without violations iff its datatypes are known, its defaults can
be read and a compound one has a name. -/
theorem checkContent_eq_nil_iff {name : String} {kind : DimensionKind} {spec : DimensionSpec}
    (hkind : DimensionKind.ofName? spec.kind = some kind) :
    (checkContent name kind spec).2 = [] ↔
      (spec.isCompound = false →
        ∃ raw datatype, spec.datatype? = some raw ∧ DataType.ofText? raw = some datatype) ∧
      (spec.isCompound = true → nameAttribute ∈ spec.attributes.map Prod.fst) ∧
      (spec.isCompound = true → ∀ a ∈ spec.attributes,
        ∃ datatype, DataType.ofText? a.2.datatype = some datatype) ∧
      ∀ declared ∈ spec.defaults, ∀ literal, declared.2 = some literal →
        ∃ v, Value.ofText declared.1 literal.display = .ok v := by
  have hcompound : spec.isCompound = kind.isCompound := by
    rw [DimensionSpec.isCompound, hkind, Option.any_some]
  rw [checkContent, DimensionSpec.defaults, hcompound]
  cases kind.isCompound with
  | true =>
    simp only [if_true, List.append_eq_nil_iff, checkAttributeNames_eq_nil_iff,
      List.flatMap_eq_nil_iff, List.forall_mem_map, checkAttribute_snd, checkDatatype_eq_nil_iff,
      checkDefault_eq_nil_iff, forall_and, forall_const, Bool.true_eq_false, false_implies,
      true_and]
  | false =>
    simp only [Bool.false_eq_true, if_false, List.append_eq_nil_iff, checkDefault_eq_nil_iff,
      List.forall_mem_singleton, forall_const, false_implies, true_and]
    cases spec.datatype? with
    | none => simp
    | some raw => simp [checkDatatype_eq_nil_iff, checkDatatype_fst]

/-- A declaration is sound iff its kind is known and nothing is found in its dimension. -/
theorem isSound_iff {name : String} {spec : DimensionSpec} :
    spec.IsSound ↔ ∃ kind, DimensionKind.ofName? spec.kind = some kind ∧
      (checkDimension name kind spec).2 = [] := by
  constructor
  · rintro ⟨⟨kind, hkind⟩, hdatatype, hnamed, hattributes, hdefaults, hlevel⟩
    refine ⟨kind, hkind, List.append_eq_nil_iff.2 ⟨?_, checkLevel_eq_nil_iff.2 hlevel⟩⟩
    exact (checkContent_eq_nil_iff hkind).2 ⟨hdatatype, hnamed, hattributes, hdefaults⟩
  · rintro ⟨kind, hkind, hnone⟩
    obtain ⟨hcontent, hlevel⟩ := List.append_eq_nil_iff.1 hnone
    obtain ⟨hdatatype, hnamed, hattributes, hdefaults⟩ :=
      (checkContent_eq_nil_iff hkind).1 hcontent
    exact ⟨⟨kind, hkind⟩, hdatatype, hnamed, hattributes, hdefaults,
      checkLevel_eq_nil_iff.1 hlevel⟩

/-- The pass over the dimensions finds nothing iff their names are new and distinct and all
declarations are sound. -/
theorem violations_checkDimensions_iff {seen : List String}
    {specs : List (String × DimensionSpec)} :
    (checkDimensions seen specs).violations = [] ↔
      (specs.map Prod.fst).Nodup ∧ (∀ entry ∈ specs, entry.1 ∉ seen) ∧
        ∀ entry ∈ specs, entry.2.IsSound := by
  induction specs generalizing seen with
  | nil => simp [checkDimensions]
  | cons entry specs ih =>
    obtain ⟨name, spec⟩ := entry
    simp only [List.map_cons, List.nodup_cons, List.forall_mem_cons]
    rw [checkDimensions]
    by_cases hseen : name ∈ seen
    · rw [if_pos (by simpa using hseen)]
      exact iff_of_false (List.cons_ne_nil _ _) fun h => h.2.1.1 hseen
    · rw [if_neg (by simpa using hseen), @isSound_iff name spec]
      have hnew : (∀ entry ∈ specs, entry.1 ∉ name :: seen) ↔
          name ∉ specs.map Prod.fst ∧ ∀ entry ∈ specs, entry.1 ∉ seen := by
        simp only [List.mem_cons, not_or, forall_and, List.mem_map, not_exists, not_and]
      cases hkind : DimensionKind.ofName? spec.kind with
      | none => simp
      | some kind =>
        simp only [List.append_eq_nil_iff, ih, hnew, Option.some.injEq, exists_eq_left']
        tauto

/-- A dimension that was declared without violations. -/
def IsDeclared (entry : String × DimensionSpec) (d : Dimension) : Prop :=
  ∃ kind, DimensionKind.ofName? entry.2.kind = some kind ∧
    checkDimension entry.1 kind entry.2 = (d, [])

theorem IsDeclared.stands {entry : String × DimensionSpec} {d : Dimension}
    (h : IsDeclared entry d) : Stands entry d := by
  obtain ⟨kind, hkind, hcheck⟩ := h
  have hstands := @stands_checkDimension entry.1 kind entry.2 hkind
  rwa [hcheck] at hstands

theorem IsDeclared.kind {entry : String × DimensionSpec} {d : Dimension}
    (h : IsDeclared entry d) : DimensionKind.ofName? entry.2.kind = some d.kind := by
  obtain ⟨kind, hkind, hcheck⟩ := h
  rw [← show (checkDimension entry.1 kind entry.2).1 = d by rw [hcheck]]
  exact hkind

/-- Without violations no declaration is rejected. -/
theorem rejected_checkDimensions {seen : List String} {specs : List (String × DimensionSpec)}
    (h : (checkDimensions seen specs).violations = []) :
    (checkDimensions seen specs).rejected = [] := by
  induction specs generalizing seen with
  | nil => rfl
  | cons entry specs ih =>
    obtain ⟨name, spec⟩ := entry
    rw [checkDimensions] at h ⊢
    split at h
    · simp at h
    · rename_i hseen
      rw [if_neg hseen]
      cases hkind : DimensionKind.ofName? spec.kind with
      | none => simp [hkind] at h
      | some kind =>
        simp only [hkind, List.append_eq_nil_iff] at h ⊢
        exact ih h.2

/-! ## Mapping -/

theorem checkTargets_eq_nil_iff {paths rejected reported : List String}
    {mapping : List (String × String)} :
    checkTargets paths rejected reported mapping = [] ↔
      ∀ entry ∈ mapping, entry.1 ∈ paths ∨ (Schema.splitPath entry.1).1 ∈ rejected ∨
        entry.1 ∈ reported := by
  induction mapping generalizing reported with
  | nil => simp [checkTargets]
  | cons entry mapping ih =>
    obtain ⟨path, column⟩ := entry
    rw [checkTargets, List.forall_mem_cons]
    by_cases hknown : path ∈ paths ∨ (Schema.splitPath path).1 ∈ rejected ∨ path ∈ reported
    · rw [if_pos (by simpa [or_assoc] using hknown), ih]
      exact (and_iff_right hknown).symm
    · rw [if_neg (by simpa [or_assoc] using hknown)]
      exact iff_of_false (List.cons_ne_nil _ _) fun h => hknown h.1

theorem checkSlot_eq_nil_iff {mapping : List (String × String)} {slot : Slot} :
    (checkSlot mapping slot).2 = [] ↔ ∃ column, columnsOf mapping slot.path = [column] := by
  rw [checkSlot]
  split
  · rename_i hnone
    simp [hnone]
  · rename_i column hone
    exact iff_of_true rfl ⟨column, hone⟩
  · rename_i hmany
    refine iff_of_false (List.cons_ne_nil _ _) ?_
    rintro ⟨column, hone⟩
    exact hmany column hone

/-- The pass over the mapping finds nothing iff all columns have names, every slot has one entry and
every entry a slot or a rejected dimension. -/
theorem checkMapping_eq_nil_iff {mapping : List (String × String)} {declared : Declarations} :
    (checkMapping mapping declared).2 = [] ↔
      (∀ entry ∈ mapping, Text.isBlankText entry.2 = false) ∧
      (∀ slot ∈ slots declared.dimensions, ∃ column, columnsOf mapping slot.path = [column]) ∧
      ∀ entry ∈ mapping, (∃ slot ∈ slots declared.dimensions, slot.path = entry.1) ∨
        (Schema.splitPath entry.1).1 ∈ declared.rejected := by
  have hcolumns : checkColumns mapping = [] ↔
      ∀ entry ∈ mapping, Text.isBlankText entry.2 = false := by
    rw [checkColumns, List.map_eq_nil_iff, List.filter_eq_nil_iff]
    simp only [Bool.not_eq_true]
  simp only [checkMapping, List.append_eq_nil_iff, hcolumns, List.flatMap_map,
    List.flatMap_eq_nil_iff, checkSlot_eq_nil_iff, checkTargets_eq_nil_iff, List.mem_map,
    List.not_mem_nil, or_false, and_assoc]

/-! ## Keys and measures -/

theorem keyType?_checkDimension {name : String} {kind : DimensionKind} {spec : DimensionSpec}
    (hkind : DimensionKind.ofName? spec.kind = some kind) :
    keyType? (checkDimension name kind spec).1 = spec.keyType? := by
  have hcompound : spec.isCompound = kind.isCompound := by
    rw [DimensionSpec.isCompound, hkind, Option.any_some]
  rw [keyType?, DimensionSpec.keyType?, checkDimension, checkContent, hcompound]
  cases kind.isCompound with
  | true =>
    simp only [if_true, Dimension.attribute?, Dimension.attributes, List.map_map, List.find?_map,
      Option.map_map]
    have hname : ((fun a : Attribute => a.name == nameAttribute) ∘ Prod.fst ∘
        fun a : String × AttributeSpec => checkAttribute name a.1 a.2) =
          fun a => a.1 == nameAttribute := by
      funext a
      rw [Function.comp_apply, Function.comp_apply, checkAttribute_fst]
    rw [hname]
    refine congrArg (Option.map · _) ?_
    funext a
    simp only [Function.comp_apply, checkAttribute_fst]
  | false =>
    simp only [Bool.false_eq_true, if_false, Option.some.injEq]
    cases spec.datatype? with
    | none => rfl
    | some raw => rw [checkDatatype_fst]

theorem checkKey_eq_nil_iff {d : Dimension} {datatype : DataType}
    (htype : keyType? d = some datatype) :
    checkKey d = [] ↔ (d.key = true → keyType? d = some .string) := by
  rw [checkKey, htype]
  cases d.key with
  | false => simp
  | true => simp

theorem checkMeasure_eq_nil_iff {name : String} {kind : DimensionKind} {spec : DimensionSpec} :
    checkMeasure (checkDimension name kind spec).1 = [] ↔
      (kind = .measure → (declaredType spec.datatype?).isNumeric = true) := by
  rw [checkMeasure, show (checkDimension name kind spec).1.kind = kind from rfl]
  by_cases hmeasure : kind = .measure
  · subst hmeasure
    have htype : (checkDimension name .measure spec).1.scalarType? =
        some (declaredType spec.datatype?) := by
      rw [Dimension.scalarType?, checkDimension, checkContent]
      simp only [DimensionKind.isCompound, Bool.false_eq_true, if_false, Option.some.injEq]
      cases spec.datatype? with
      | none => rfl
      | some raw => rw [checkDatatype_fst]
    rw [if_pos (beq_self_eq_true _), htype]
    simp
  · rw [if_neg (by simpa using hmeasure)]
    exact iff_of_true rfl fun h => absurd h hmeasure

/-- Nothing is found in the roles of a dimension iff its declaration is suited for them. -/
theorem IsDeclared.isSuited_iff {entry : String × DimensionSpec} {d : Dimension}
    (h : IsDeclared entry d) : entry.2.IsSuited ↔ checkKey d ++ checkMeasure d = [] := by
  obtain ⟨kind, hkind, hcheck⟩ := h
  obtain rfl : (checkDimension entry.1 kind entry.2).1 = d := by rw [hcheck]
  obtain ⟨datatype, htype⟩ :=
    @exists_keyType_checkDimension entry.1 kind entry.2 (by rw [hcheck])
  rw [List.append_eq_nil_iff, checkKey_eq_nil_iff htype, checkMeasure_eq_nil_iff,
    keyType?_checkDimension hkind]
  constructor
  · rintro ⟨hkey, hmeasure⟩
    exact ⟨hkey, fun h => hmeasure (h ▸ hkind)⟩
  · rintro ⟨hkey, hmeasure⟩
    refine ⟨hkey, fun h => hmeasure ?_⟩
    rw [hkind, Option.some.injEq] at h
    exact h

/-- The pass over the roles finds nothing iff all declarations are suited for them. -/
theorem checkRoles_eq_nil_iff {specs : List (String × DimensionSpec)}
    {dimensions : List Dimension} (h : List.Forall₂ IsDeclared specs dimensions) :
    checkRoles dimensions = [] ↔ ∀ entry ∈ specs, entry.2.IsSuited := by
  rw [checkRoles, List.flatMap_eq_nil_iff]
  exact (forall_mem_iff_of_forall₂ h fun _ _ => IsDeclared.isSuited_iff).symm

end Validation

end FactCube
