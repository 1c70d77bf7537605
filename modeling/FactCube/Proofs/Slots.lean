import FactCube.Model.Validation
import FactCube.Proofs.Outcome
import FactCube.Proofs.ValueOrder

/-!
# Slots of a validated model

A document without violations gives a schema whose mapped fields are exactly the slots of its
dimensions, in the order of their declaration. A value fits a slot if it has the slot's datatype and
is regular; every declared default fits its slot, and only slots of strings may stay blank.

Results:
* `Value.fits_of_ofText`: what is read as a value of a datatype fits it.
* `Validation.exists_spec_of_mem`: every dimension comes from a declaration without violations.
* `Document.wellFormed_of_validate`: a validated schema is well formed.
-/

namespace FactCube

/-! ## Values that fit a datatype -/

/-- Whether a value can fill a slot of a datatype. -/
structure Value.Fits (v : Value) (datatype : DataType) : Prop where
  dataType_eq : v.dataType = datatype
  regular : v.Regular

theorem isFinite_of_readFloat {s : String} {x : Float} (h : readFloat s = .ok x) :
    Binary64.isFinite x = true ∧ Binary64.unsignedZero x = x := by
  unfold readFloat at h
  split at h
  · split at h
    · rename_i hfinite
      cases h
      exact ⟨Binary64.isFinite_unsignedZero hfinite, Binary64.unsignedZero_idem _⟩
    · cases h
  · cases h

/-- What is read as a value of a datatype fits it. -/
theorem Value.fits_of_ofText {datatype : DataType} {s : String} {v : Value}
    (h : Value.ofText datatype s = .ok v) : v.Fits datatype := by
  cases datatype
  case string =>
    cases h
    exact ⟨rfl, trivial⟩
  case float =>
    rw [ofText, Outcome.map_eq_ok_iff] at h
    obtain ⟨x, hx, rfl⟩ := h
    exact ⟨rfl, isFinite_of_readFloat hx⟩
  all_goals
    rw [ofText, Outcome.map_eq_ok_iff] at h
    obtain ⟨x, -, rfl⟩ := h
    exact ⟨rfl, trivial⟩

/-- A string fits the datatype of strings. -/
theorem Value.fits_string (s : String) : (Value.string s).Fits .string := ⟨rfl, trivial⟩

theorem Value.Fits.exists_string {v : Value} (h : v.Fits .string) : ∃ s, v = .string s := by
  cases v with
  | string s => exact ⟨s, rfl⟩
  | _ => cases h.dataType_eq

/-! ## Slots -/

/-- The slot a mapped field fills. -/
def MappedField.slot (f : MappedField) : Validation.Slot :=
  ⟨f.path, f.target, f.datatype, f.default?, f.optional⟩

namespace Validation

/-- Whether what a slot holds without a text from its column fits it. -/
structure Slot.Sound (slot : Slot) : Prop where
  default_fits : ∀ v, slot.default? = some v → v.Fits slot.datatype
  optional_string : slot.optional = true → slot.datatype = .string

/-- The slots of dimensions whose positions start at `start`. -/
def slotsFrom (start : Nat) (dimensions : List Dimension) : List Slot :=
  (dimensions.zipIdx start).flatMap fun (d, index) => slotsOf index d

theorem slotsFrom_nil (start : Nat) : slotsFrom start [] = [] := rfl

theorem slotsFrom_cons (start : Nat) (d : Dimension) (dimensions : List Dimension) :
    slotsFrom start (d :: dimensions) = slotsOf start d ++ slotsFrom (start + 1) dimensions := rfl

/-- Slots are settled by the names and contents of the dimensions. -/
theorem slotsFrom_congr {start : Nat} {ds es : List Dimension}
    (h : ds.map (fun d => (d.name, d.content)) = es.map fun d => (d.name, d.content)) :
    slotsFrom start ds = slotsFrom start es := by
  induction ds generalizing start es with
  | nil =>
    cases es with
    | nil => rfl
    | cons e es => simp at h
  | cons d ds ih =>
    cases es with
    | nil => simp at h
    | cons e es =>
      simp only [List.map_cons, List.cons.injEq, Prod.mk.injEq] at h
      obtain ⟨⟨hname, hcontent⟩, hrest⟩ := h
      rw [slotsFrom_cons, slotsFrom_cons, ih hrest, slotsOf, slotsOf, hname, hcontent]

theorem withLevels_map {β : Type} (f : Dimension → β) (taxonomies : List Taxonomy)
    (dimensions : List Dimension)
    (hf : ∀ (d : Dimension) (level? : Option Nat), f { d with level? := level? } = f d) :
    (withLevels taxonomies dimensions).map f = dimensions.map f := by
  rw [withLevels, List.map_map]
  conv_rhs => rw [← List.zipIdx_map_fst 0 dimensions, List.map_map]
  apply List.map_congr_left
  rintro ⟨d, index⟩ -
  simp only [Function.comp_apply]
  split
  · exact hf d _
  · rfl

/-! ## Dimensions without violations -/

theorem fits_of_checkDefault {path : String} {literal? : Option Literal} {datatype : DataType}
    {v : Value} (h : (checkDefault path literal? datatype).1 = some v) : v.Fits datatype := by
  unfold checkDefault at h
  split at h
  · cases h
  · split at h
    · rename_i value hvalue
      cases h
      exact Value.fits_of_ofText hvalue
    · cases h

theorem fits_of_checkAttribute (dimension name : String) (spec : AttributeSpec) {v : Value}
    (h : (checkAttribute dimension name spec).1.default? = some v) :
    v.Fits (checkAttribute dimension name spec).1.datatype := by
  cases hdatatype : Validation.checkDatatype (dimension ++ "." ++ name) spec.datatype with
  | mk datatype typeViolations =>
    cases hdefault : checkDefault (dimension ++ "." ++ name) spec.default? datatype with
    | mk default? defaultViolations =>
      simp only [checkAttribute, hdatatype, hdefault] at h ⊢
      exact fits_of_checkDefault (by rw [hdefault]; exact h)

/-- The default of an attribute or of a scalar dimension fits its datatype. -/
theorem sound_of_mem_slotsOf {name : String} {kind : DimensionKind} {spec : DimensionSpec}
    {index : Nat} {slot : Slot} (h : slot ∈ slotsOf index (checkDimension name kind spec).1) :
    slot.Sound := by
  rw [slotsOf, checkDimension, checkContent] at h
  by_cases hkind : kind.isCompound = true
  · simp only [hkind, if_true, List.mem_map, List.map_map] at h
    obtain ⟨⟨a, position⟩, ha, rfl⟩ := h
    obtain ⟨⟨attr, attrSpec⟩, -, hattr⟩ := List.mem_map.1 (List.fst_mem_of_mem_zipIdx ha)
    simp only [Function.comp_apply] at hattr
    constructor
    · intro v hv
      simp only at hv ⊢
      rw [← hattr] at hv ⊢
      exact fits_of_checkAttribute name attr attrSpec hv
    · intro ho
      simpa using ho
  · simp only [hkind, if_false, Bool.false_eq_true, List.mem_singleton] at h
    subst h
    constructor
    · intro v hv
      exact fits_of_checkDefault hv
    · intro ho
      cases ho

/-- Without violations every declaration has a known kind and becomes a dimension, in order. -/
theorem forall₂_checkDimensions {seen : List String} {specs : List (String × DimensionSpec)}
    (hv : (checkDimensions seen specs).violations = []) :
    List.Forall₂
      (fun entry d => ∃ kind, DimensionKind.ofName? entry.2.kind = some kind ∧
        checkDimension entry.1 kind entry.2 = (d, []))
      specs (checkDimensions seen specs).dimensions := by
  induction specs generalizing seen with
  | nil => exact .nil
  | cons entry specs ih =>
    obtain ⟨name, spec⟩ := entry
    rw [checkDimensions] at hv ⊢
    split at hv
    · simp at hv
    · rename_i hseen
      rw [if_neg hseen]
      cases hkind : DimensionKind.ofName? spec.kind with
      | none => simp [hkind] at hv
      | some kind =>
        simp only [hkind, List.append_eq_nil_iff] at hv
        exact .cons ⟨kind, hkind, Prod.ext rfl hv.1⟩ (ih hv.2)

/-- Every dimension comes from a declaration of a known kind without violations. -/
theorem exists_spec_of_mem {seen : List String} {specs : List (String × DimensionSpec)}
    (hv : (checkDimensions seen specs).violations = []) {d : Dimension}
    (hd : d ∈ (checkDimensions seen specs).dimensions) :
    ∃ name spec kind, (name, spec) ∈ specs ∧ DimensionKind.ofName? spec.kind = some kind ∧
      checkDimension name kind spec = (d, []) := by
  have hall := forall₂_checkDimensions hv
  obtain ⟨i, hi, rfl⟩ := List.mem_iff_getElem.1 hd
  have hlt : i < specs.length := by rw [hall.length_eq]; exact hi
  obtain ⟨kind, hkind, hcheck⟩ := hall.get hlt hi
  exact ⟨specs[i].1, specs[i].2, kind, List.getElem_mem hlt, hkind, hcheck⟩

theorem names_checkDimensions {seen : List String} {specs : List (String × DimensionSpec)}
    (hv : (checkDimensions seen specs).violations = []) :
    ((checkDimensions seen specs).dimensions.map Dimension.name).Nodup ∧
      ∀ d ∈ (checkDimensions seen specs).dimensions, d.name ∉ seen := by
  induction specs generalizing seen with
  | nil => simp [checkDimensions]
  | cons entry specs ih =>
    obtain ⟨name, spec⟩ := entry
    rw [checkDimensions] at hv ⊢
    split at hv
    · simp at hv
    · rename_i hseen
      rw [if_neg hseen]
      cases hkind : DimensionKind.ofName? spec.kind with
      | none => simp [hkind] at hv
      | some kind =>
        simp only [hkind, List.append_eq_nil_iff] at hv
        obtain ⟨hnodup, hfresh⟩ := ih hv.2
        simp only [List.map_cons, List.nodup_cons, List.forall_mem_cons]
        refine ⟨⟨?_, hnodup⟩, show name ∉ seen by simpa using hseen, fun d hd => ?_⟩
        · rw [List.mem_map]
          rintro ⟨d, hd, hname⟩
          exact hfresh d hd (by rw [hname]; exact List.mem_cons_self)
        · exact fun h => hfresh d hd (List.mem_cons_of_mem _ h)

/-! ## Mapped fields -/

/-- Without violations every slot has its field. -/
theorem map_slot_checkMapping {mapping : List (String × String)} {declared : Declarations}
    (hv : (checkMapping mapping declared).2 = []) :
    (checkMapping mapping declared).1.map MappedField.slot = slots declared.dimensions := by
  simp only [checkMapping, List.append_eq_nil_iff] at hv ⊢
  have hslots := hv.1.2
  generalize slots declared.dimensions = all at hslots
  induction all with
  | nil => rfl
  | cons slot all ih =>
    simp only [List.map_cons, List.flatMap_cons, List.append_eq_nil_iff] at hslots
    have hfield : ∃ f, (checkSlot mapping slot).1 = some f ∧ f.slot = slot := by
      have hslot := hslots.1
      unfold checkSlot at hslot ⊢
      split at hslot
      · simp at hslot
      · exact ⟨_, rfl, rfl⟩
      · simp at hslot
    obtain ⟨f, hf, heq⟩ := hfield
    rw [List.map_cons, List.filterMap_cons_some hf, List.map_cons, heq, ih hslots.2]

end Validation

/-! ## Well-formed schemas -/

/-- What validation has made sure of, as far as records depend on it. -/
structure Schema.WellFormed (schema : Schema) : Prop where
  /-- The fields are the slots of the dimensions, in order. -/
  fields_slots : schema.fields.map MappedField.slot = Validation.slots schema.dimensions
  /-- Defaults fit their slots and only slots of strings are optional. -/
  slots_sound : ∀ slot ∈ Validation.slots schema.dimensions, slot.Sound
  /-- No two dimensions share a name. -/
  names_nodup : (schema.dimensions.map Dimension.name).Nodup

/-- What validation has made of a document it accepts: no part has found anything, and the schema
has what the parts have built of the declarations. -/
structure Validation.Accepted (doc : Document) (declared : Declarations) (schema : Schema) :
    Prop where
  dimensions_eq :
    schema.dimensions = withLevels (taxonomies declared.dimensions) declared.dimensions
  fields_eq : schema.fields = (checkMapping doc.mapping declared).1
  declarations : declared.violations = []
  mapping : (checkMapping doc.mapping declared).2 = []
  roles : checkRoles declared.dimensions = []

theorem Document.check_of_validate {doc : Document} {schema : Schema}
    (h : doc.validate = .ok schema) :
    (Validation.check doc).1 = schema ∧ (Validation.check doc).2 = [] := by
  unfold Document.validate at h
  split at h
  rename_i found violations hcheck
  split at h
  · rename_i hempty
    cases h
    rw [hcheck]
    exact ⟨rfl, List.isEmpty_iff.1 hempty⟩
  · cases h

theorem Document.accepted_of_validate {doc : Document} {schema : Schema}
    (h : doc.validate = .ok schema) :
    Validation.Accepted doc (Validation.checkDimensions [] doc.dimensions) schema := by
  obtain ⟨rfl, hv⟩ := Document.check_of_validate h
  set declared := Validation.checkDimensions [] doc.dimensions with hdeclared
  have hparts : (Validation.checkDataset doc.dataset ++ declared.violations ++
      (Validation.checkMapping doc.mapping declared).2 ++
      Validation.checkRoles declared.dimensions ++
      Validation.checkTaxonomies declared.dimensions ++ _) = [] := hv
  simp only [List.append_eq_nil_iff] at hparts
  obtain ⟨⟨⟨⟨⟨-, hdims⟩, hmapping⟩, hroles⟩, -⟩, -⟩ := hparts
  exact ⟨rfl, rfl, hdims, hmapping, hroles⟩

/-- A validated schema is well formed. -/
theorem Document.wellFormed_of_validate {doc : Document} {schema : Schema}
    (h : doc.validate = .ok schema) : schema.WellFormed := by
  have haccepted := Document.accepted_of_validate h
  set declared := Validation.checkDimensions [] doc.dimensions
  have hslots : Validation.slots schema.dimensions = Validation.slots declared.dimensions := by
    rw [haccepted.dimensions_eq]
    exact Validation.slotsFrom_congr (Validation.withLevels_map _ _ _ fun _ _ => rfl)
  refine ⟨?_, ?_, ?_⟩
  · rw [hslots, haccepted.fields_eq]
    exact Validation.map_slot_checkMapping haccepted.mapping
  · rw [hslots]
    intro slot hslot
    obtain ⟨⟨d, index⟩, hd, hmem⟩ := List.mem_flatMap.1 hslot
    obtain ⟨name, spec, kind, -, -, hcheck⟩ :=
      Validation.exists_spec_of_mem haccepted.declarations (List.fst_mem_of_mem_zipIdx hd)
    have heq : (Validation.checkDimension name kind spec).1 = d := by rw [hcheck]
    exact Validation.sound_of_mem_slotsOf (by rw [heq]; exact hmem)
  · rw [haccepted.dimensions_eq, Validation.withLevels_map _ _ _ fun _ _ => rfl]
    exact (Validation.names_checkDimensions haccepted.declarations).1

end FactCube
