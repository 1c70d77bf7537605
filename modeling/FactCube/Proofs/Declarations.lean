import FactCube.Proofs.Slots

/-!
# What a document declares

The slots of a dataset can be read off its document: one for each scalar dimension, one for each
attribute of a compound dimension, with the datatype and the default declared there. If the document
passes validation, its schema has exactly these slots, whatever the order of the mapping, and each
is filled from the one column that the mapping gives to its path. Keys are then named by strings and
measures hold numbers.

Results:
* `Validation.slotsOf_checkDimension`: a checked dimension has the slots of its declaration.
* `Document.slots_of_validate`: the fields of a validated schema are the declared slots, in order.
* `Document.columns_of_validate`: the column of a field is the only one mapped to its path.
* `Document.isSuitable_of_validate`: keys are named by strings and measures hold numbers.
* `Document.exists_default_of_validate`: every declared default is a value of its datatype.
-/

namespace FactCube

open Validation (Slot slotsOf)

/-! ## Declared slots -/

/-- The datatype a declaration names. No declaration without violations falls back to strings. -/
def declaredType (raw? : Option String) : DataType := (raw?.bind DataType.ofText?).getD .string

/-- The declared default, as a value of the datatype. -/
def declaredDefault (datatype : DataType) (literal? : Option Literal) : Option Value :=
  literal?.bind fun literal => (Value.ofText datatype literal.display).toOption

/-- A slot as declared. Strings may be absent in compound dimensions. -/
def declaredSlot (path : String) (target : Field) (raw? : Option String)
    (literal? : Option Literal) (inCompound : Bool) : Slot where
  path := path
  target := target
  datatype := declaredType raw?
  default? := declaredDefault (declaredType raw?) literal?
  optional := inCompound && declaredType raw? == .string

namespace DimensionSpec

/-- Whether a dimension is declared with attributes. -/
def isCompound (spec : DimensionSpec) : Bool :=
  (DimensionKind.ofName? spec.kind).any DimensionKind.isCompound

/-- The slots of a declared dimension at a position, in the order of its attributes. -/
def slots (index : Nat) (name : String) (spec : DimensionSpec) : List Slot :=
  if spec.isCompound then
    spec.attributes.zipIdx.map fun ((attr, attrSpec), position) =>
      declaredSlot (name ++ "." ++ attr) (.component index position) (some attrSpec.datatype)
        attrSpec.default? true
  else [declaredSlot name (.scalar index) spec.datatype? spec.default? false]

/-- The datatypes and defaults declared for the slots of a dimension. -/
def defaults (spec : DimensionSpec) : List (DataType × Option Literal) :=
  if spec.isCompound then
    spec.attributes.map fun (_, attrSpec) =>
      (declaredType (some attrSpec.datatype), attrSpec.default?)
  else [(declaredType spec.datatype?, spec.default?)]

end DimensionSpec

/-- The slots of a document, in the order of its declarations. -/
def Document.slots (doc : Document) : List Slot :=
  doc.dimensions.zipIdx.flatMap fun ((name, spec), index) => spec.slots index name

/-! ## Checked declarations -/

namespace Validation

theorem checkDatatype_fst (path raw : String) :
    (Validation.checkDatatype path raw).1 = declaredType (some raw) := by
  rw [Validation.checkDatatype, declaredType, Option.bind_some]
  cases DataType.ofText? raw <;> rfl

theorem checkDefault_fst (path : String) (literal? : Option Literal) (datatype : DataType) :
    (checkDefault path literal? datatype).1 = declaredDefault datatype literal? := by
  cases literal? with
  | none => rfl
  | some literal =>
    rw [checkDefault, declaredDefault, Option.bind_some]
    cases Value.ofText datatype literal.display <;> rfl

theorem exists_of_checkDefault {path : String} {literal? : Option Literal} {datatype : DataType}
    (h : (checkDefault path literal? datatype).2 = []) {literal : Literal}
    (hliteral : literal? = some literal) : ∃ v, declaredDefault datatype literal? = some v := by
  rw [hliteral, checkDefault] at h
  rw [hliteral, declaredDefault, Option.bind_some]
  cases hvalue : Value.ofText datatype literal.display with
  | ok v => exact ⟨v, rfl⟩
  | error fault => simp [hvalue] at h

theorem checkAttribute_fst (dimension name : String) (spec : AttributeSpec) :
    (checkAttribute dimension name spec).1 =
      ⟨name, declaredType (some spec.datatype),
        declaredDefault (declaredType (some spec.datatype)) spec.default?⟩ := by
  simp only [checkAttribute, checkDatatype_fst, checkDefault_fst]

theorem checkAttribute_snd (dimension name : String) (spec : AttributeSpec) :
    (checkAttribute dimension name spec).2 =
      (Validation.checkDatatype (dimension ++ "." ++ name) spec.datatype).2 ++
        (checkDefault (dimension ++ "." ++ name) spec.default?
          (declaredType (some spec.datatype))).2 := by
  simp only [checkAttribute, checkDatatype_fst]

theorem isCompound_checkDimension (name : String) (kind : DimensionKind) (spec : DimensionSpec) :
    (checkDimension name kind spec).1.isCompound = kind.isCompound := by
  simp only [checkDimension, checkContent, Dimension.isCompound]
  cases kind.isCompound <;> rfl

/-- A checked dimension has the slots of its declaration. -/
theorem slotsOf_checkDimension {name : String} {kind : DimensionKind} {spec : DimensionSpec}
    (hkind : DimensionKind.ofName? spec.kind = some kind) (index : Nat) :
    slotsOf index (checkDimension name kind spec).1 = spec.slots index name := by
  have hcompound : spec.isCompound = kind.isCompound := by
    rw [DimensionSpec.isCompound, hkind, Option.any_some]
  rw [slotsOf, DimensionSpec.slots, hcompound, checkDimension, checkContent]
  cases kind.isCompound with
  | true =>
    simp only [if_true, List.map_map, List.zipIdx_map]
    refine List.map_congr_left fun declared _ => ?_
    obtain ⟨⟨attr, a⟩, position⟩ := declared
    simp only [Function.comp_apply, Prod.map_apply, id_eq, checkAttribute_fst, declaredSlot,
      Bool.true_and]
  | false =>
    simp only [Bool.false_eq_true, if_false, checkDefault_fst, declaredSlot, Bool.false_and,
      List.cons.injEq, and_true]
    cases spec.datatype? with
    | none => rfl
    | some raw => rw [checkDatatype_fst]

/-- The declared defaults of a dimension without violations are values of their datatypes. -/
theorem exists_default_of_checkDimension {name : String} {kind : DimensionKind}
    {spec : DimensionSpec} (hkind : DimensionKind.ofName? spec.kind = some kind)
    (h : (checkDimension name kind spec).2 = []) {declared : DataType × Option Literal}
    (hdeclared : declared ∈ spec.defaults) {literal : Literal}
    (hliteral : declared.2 = some literal) :
    ∃ v, declaredDefault declared.1 declared.2 = some v := by
  have hcompound : spec.isCompound = kind.isCompound := by
    rw [DimensionSpec.isCompound, hkind, Option.any_some]
  rw [DimensionSpec.defaults, hcompound] at hdeclared
  simp only [checkDimension, checkContent] at h
  cases hc : kind.isCompound with
  | true =>
    simp only [hc, if_true, List.append_eq_nil_iff, List.flatMap_eq_nil_iff, List.mem_map]
      at h hdeclared
    obtain ⟨⟨attr, attrSpec⟩, hmem, rfl⟩ := hdeclared
    simp only at hliteral ⊢
    have hchecked := h.1.2 (checkAttribute name attr attrSpec) ⟨(attr, attrSpec), hmem, rfl⟩
    rw [checkAttribute_snd, List.append_eq_nil_iff] at hchecked
    exact exists_of_checkDefault hchecked.2 hliteral
  | false =>
    simp only [hc, Bool.false_eq_true, if_false, List.mem_singleton, List.append_eq_nil_iff]
      at h hdeclared
    subst hdeclared
    simp only at hliteral ⊢
    have hchecked : (checkDefault name spec.default? (declaredType spec.datatype?)).2 = [] := by
      cases hraw : spec.datatype? with
      | none => simp [hraw] at h
      | some raw =>
        simp only [hraw, checkDatatype_fst] at h
        exact h.1.2
    exact exists_of_checkDefault hchecked hliteral

/-- Whether a dimension is as declared, as far as its values are concerned. -/
structure Stands (entry : String × DimensionSpec) (d : Dimension) : Prop where
  name_eq : d.name = entry.1
  shape : d.isCompound = entry.2.isCompound
  slots : ∀ index, slotsOf index d = entry.2.slots index entry.1

theorem stands_checkDimension {name : String} {kind : DimensionKind} {spec : DimensionSpec}
    (hkind : DimensionKind.ofName? spec.kind = some kind) :
    Stands (name, spec) (checkDimension name kind spec).1 where
  name_eq := rfl
  shape := by
    rw [isCompound_checkDimension, DimensionSpec.isCompound, hkind, Option.any_some]
  slots := slotsOf_checkDimension hkind

/-- A level changes nothing about the values of a dimension. -/
theorem Stands.withLevel {entry : String × DimensionSpec} {d : Dimension} (h : Stands entry d)
    (level? : Option Nat) : Stands entry { d with level? := level? } :=
  ⟨h.name_eq, h.shape, h.slots⟩

theorem forall_mem_iff_of_forall₂ {α β : Type} {R : α → β → Prop} {as : List α} {bs : List β}
    (h : List.Forall₂ R as bs) {P : α → Prop} {Q : β → Prop} (hR : ∀ a b, R a b → (P a ↔ Q b)) :
    (∀ a ∈ as, P a) ↔ ∀ b ∈ bs, Q b := by
  induction h with
  | nil => exact iff_of_true (List.forall_mem_nil _) (List.forall_mem_nil _)
  | cons hab _ ih => rw [List.forall_mem_cons, List.forall_mem_cons, hR _ _ hab, ih]

theorem exists_getElem?_of_forall₂ {α β : Type} {R : α → β → Prop} {as : List α} {bs : List β}
    (h : List.Forall₂ R as bs) {i : Nat} {b : β} (hb : bs[i]? = some b) :
    ∃ a, as[i]? = some a ∧ R a b := by
  obtain ⟨hlt, rfl⟩ := List.getElem?_eq_some_iff.1 hb
  have hlt' : i < as.length := by rw [h.length_eq]; exact hlt
  exact ⟨_, List.getElem?_eq_getElem hlt', h.get hlt' hlt⟩

/-- What holds of declared dimensions whatever their levels holds of them with levels. -/
theorem forall₂_withLevels {R : String × DimensionSpec → Dimension → Prop}
    (hR : ∀ entry d level?, R entry d → R entry { d with level? := level? })
    {entries : List (String × DimensionSpec)} {dimensions : List Dimension}
    (h : List.Forall₂ R entries dimensions) (taxonomies : List Taxonomy) :
    List.Forall₂ R entries (withLevels taxonomies dimensions) := by
  rw [withLevels, List.forall₂_map_right_iff]
  rw [← List.zipIdx_map_fst 0 dimensions, List.forall₂_map_right_iff] at h
  refine h.imp fun entry placed hentry => ?_
  obtain ⟨d, index⟩ := placed
  show R entry (if d.kind == .classifier then { d with level? := _ } else d)
  split
  · exact hR entry d _ hentry
  · exact hentry

/-- Dimensions as declared have the declared slots. -/
theorem slotsFrom_of_stands {entries : List (String × DimensionSpec)} {dimensions : List Dimension}
    (h : List.Forall₂ Stands entries dimensions) (start : Nat) :
    slotsFrom start dimensions =
      (entries.zipIdx start).flatMap fun ((name, spec), index) => spec.slots index name := by
  induction h generalizing start with
  | nil => rfl
  | cons hentry _ ih =>
    rw [slotsFrom_cons, hentry.slots, ih]
    rfl

/-- Whether a key is named by strings and a measure holds numbers. -/
structure IsSuitable (d : Dimension) : Prop where
  key : d.key = true → keyType? d = some .string
  measure : d.kind = .measure →
    ∃ datatype default?, d.content = .scalar datatype default? ∧ datatype.isNumeric = true

/-- A dimension without violations has a text that identifies its members. -/
theorem exists_keyType_checkDimension {name : String} {kind : DimensionKind} {spec : DimensionSpec}
    (h : (checkDimension name kind spec).2 = []) :
    ∃ datatype, keyType? (checkDimension name kind spec).1 = some datatype := by
  simp only [checkDimension, checkContent, keyType?] at h ⊢
  cases hkind : kind.isCompound with
  | false => exact ⟨_, rfl⟩
  | true =>
    simp only [hkind, if_true, List.append_eq_nil_iff, checkAttributeNames] at h ⊢
    have hnames := h.1.1
    split at hnames
    · simp at hnames
    · split at hnames
      · rename_i hany
        obtain ⟨⟨attr, attrSpec⟩, hmem, hname⟩ := List.any_eq_true.1 hany
        rw [Dimension.attribute?, ← Option.isSome_iff_exists, Option.isSome_map,
          List.find?_isSome]
        refine ⟨(checkAttribute name attr attrSpec).1, ?_, ?_⟩
        · rw [Dimension.attributes, List.map_map, List.mem_map]
          exact ⟨(attr, attrSpec), hmem, rfl⟩
        · rw [checkAttribute_fst]
          exact hname
      · simp at hnames

theorem isSuitable_of_checkRoles {dimensions : List Dimension} (h : checkRoles dimensions = [])
    {d : Dimension} (hd : d ∈ dimensions) {datatype : DataType}
    (htype : keyType? d = some datatype) (hshape : d.kind = .measure → d.isCompound = false) :
    IsSuitable d := by
  rw [checkRoles, List.flatMap_eq_nil_iff] at h
  obtain ⟨hkey, hmeasure⟩ := List.append_eq_nil_iff.1 (h d hd)
  constructor
  · intro hd
    rw [checkKey, if_pos hd, htype] at hkey
    simp only at hkey
    split at hkey
    · rename_i hstring
      rw [htype, eq_of_beq hstring]
    · cases hkey
  · intro hd
    rw [checkMeasure, hd, if_pos (beq_self_eq_true _)] at hmeasure
    have hscalar := hshape hd
    cases hcontent : d.content with
    | compound attributes =>
      rw [Dimension.isCompound, hcontent] at hscalar
      cases hscalar
    | scalar datatype default? =>
      simp only [Dimension.scalarType?, hcontent] at hmeasure
      split at hmeasure
      · rename_i hnumeric
        exact ⟨_, _, rfl, hnumeric⟩
      · cases hmeasure

theorem exists_of_mem_withLevels {taxonomies : List Taxonomy} {dimensions : List Dimension}
    {d : Dimension} (h : d ∈ withLevels taxonomies dimensions) :
    ∃ e ∈ dimensions, ∃ level?, d = { e with level? := level? } := by
  obtain ⟨⟨e, index⟩, hmem, heq⟩ := List.mem_map.1 h
  refine ⟨e, List.fst_mem_of_mem_zipIdx hmem, ?_⟩
  rw [← heq]
  show ∃ level?, (if e.kind == .classifier then { e with level? := _ } else e) = _
  split
  · exact ⟨_, rfl⟩
  · exact ⟨e.level?, rfl⟩

theorem columnsOf_of_mem_checkMapping {mapping : List (String × String)}
    {declared : Declarations} {field : MappedField}
    (h : field ∈ (checkMapping mapping declared).1) :
    columnsOf mapping field.path = [field.column] := by
  simp only [checkMapping, List.mem_filterMap, List.mem_map] at h
  obtain ⟨_, ⟨slot, -, rfl⟩, hfield⟩ := h
  unfold checkSlot at hfield
  split at hfield
  · cases hfield
  · rename_i column hcolumns
    cases hfield
    exact hcolumns
  · cases hfield

end Validation

/-! ## Validated schemas -/

namespace Document

variable {doc : Document} {schema : Schema}

/-- The dimensions of a validated schema are as declared, in order. -/
theorem forall₂_of_validate (h : doc.validate = .ok schema) :
    List.Forall₂ Validation.Stands doc.dimensions schema.dimensions := by
  have haccepted := Document.accepted_of_validate h
  have hall := Validation.forall₂_checkDimensions haccepted.declarations
  rw [haccepted.dimensions_eq]
  refine Validation.forall₂_withLevels (fun _ _ level? h => h.withLevel level?)
    (hall.imp fun entry d => ?_) _
  rintro ⟨kind, hkind, hcheck⟩
  have hstands := @Validation.stands_checkDimension entry.1 kind entry.2 hkind
  rw [hcheck] at hstands
  exact hstands

/-- The fields of a validated schema are the declared slots, in order. -/
theorem slots_of_validate (h : doc.validate = .ok schema) :
    schema.fields.map MappedField.slot = doc.slots := by
  rw [(Document.wellFormed_of_validate h).fields_slots]
  exact Validation.slotsFrom_of_stands (forall₂_of_validate h) 0

/-- The column of a field is the only one mapped to its path. -/
theorem columns_of_validate (h : doc.validate = .ok schema) {field : MappedField}
    (hfield : field ∈ schema.fields) :
    Validation.columnsOf doc.mapping field.path = [field.column] := by
  rw [(Document.accepted_of_validate h).fields_eq] at hfield
  exact Validation.columnsOf_of_mem_checkMapping hfield

/-- A dimension of a validated schema is a checked one, up to its level. -/
theorem exists_checkDimension_of_validate (h : doc.validate = .ok schema) {d : Dimension}
    (hd : d ∈ schema.dimensions) :
    ∃ name kind spec level?, (Validation.checkDimension name kind spec).2 = [] ∧
      (Validation.checkDimension name kind spec).1 ∈
        (Validation.checkDimensions [] doc.dimensions).dimensions ∧
      d = { (Validation.checkDimension name kind spec).1 with level? := level? } := by
  have haccepted := Document.accepted_of_validate h
  rw [haccepted.dimensions_eq] at hd
  obtain ⟨e, he, level?, rfl⟩ := Validation.exists_of_mem_withLevels hd
  obtain ⟨name, spec, kind, -, -, hcheck⟩ :=
    Validation.exists_spec_of_mem haccepted.declarations he
  obtain rfl : (Validation.checkDimension name kind spec).1 = e := by rw [hcheck]
  exact ⟨name, kind, spec, level?, by rw [hcheck], he, rfl⟩

/-- Every dimension of a validated schema has a text that identifies its members. -/
theorem exists_keyType_of_validate (h : doc.validate = .ok schema) {d : Dimension}
    (hd : d ∈ schema.dimensions) : ∃ datatype, Validation.keyType? d = some datatype := by
  obtain ⟨name, kind, spec, level?, hnone, -, rfl⟩ := exists_checkDimension_of_validate h hd
  exact Validation.exists_keyType_checkDimension hnone

/-- Keys are named by strings and measures hold numbers. -/
theorem isSuitable_of_validate (h : doc.validate = .ok schema) {d : Dimension}
    (hd : d ∈ schema.dimensions) : Validation.IsSuitable d := by
  obtain ⟨name, kind, spec, level?, hnone, hmem, rfl⟩ := exists_checkDimension_of_validate h hd
  obtain ⟨datatype, htype⟩ := Validation.exists_keyType_checkDimension hnone
  have hsuitable := Validation.isSuitable_of_checkRoles (Document.accepted_of_validate h).roles hmem
    htype fun hmeasure => by
      rw [Validation.isCompound_checkDimension, show kind = .measure from hmeasure]
      rfl
  exact ⟨hsuitable.key, hsuitable.measure⟩

/-- Every declared default is a value of its datatype. -/
theorem exists_default_of_validate (h : doc.validate = .ok schema)
    {entry : String × DimensionSpec} (hentry : entry ∈ doc.dimensions)
    {declared : DataType × Option Literal} (hdeclared : declared ∈ entry.2.defaults)
    {literal : Literal} (hliteral : declared.2 = some literal) :
    ∃ v, declaredDefault declared.1 declared.2 = some v ∧ v.Fits declared.1 := by
  have hall := Validation.forall₂_checkDimensions (Document.accepted_of_validate h).declarations
  obtain ⟨i, hi, rfl⟩ := List.mem_iff_getElem.1 hentry
  obtain ⟨kind, hkind, hcheck⟩ := hall.get hi (by rw [← hall.length_eq]; exact hi)
  obtain ⟨v, hv⟩ :=
    Validation.exists_default_of_checkDimension hkind (by rw [hcheck]) hdeclared hliteral
  refine ⟨v, hv, @Validation.fits_of_checkDefault "" declared.2 _ _ ?_⟩
  rw [Validation.checkDefault_fst, hv]

end Document

end FactCube
