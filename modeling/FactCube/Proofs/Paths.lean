import FactCube.Proofs.Declarations
import FactCube.Proofs.Facts

/-!
# Paths of fields

The path of a field is the name of its dimension with, for an attribute or a part of a date, the
point and one more name. A path is read the other way round: up to its first point it names a
dimension, what follows names the first attribute of that name. The two agree on a field exactly
if the name of its dimension holds no point and no attribute before it has the same name. Validation
compares whole paths only, so it lets both kinds of fields pass that cannot be named by their path.

Results:
* `Schema.resolve?_pathOf_iff`: when the path of a field leads back to it.
* `Document.paths_of_validate`: the mapped fields of a validated schema have the paths of their
  targets, and all of them can be named, each by a path of its own, exactly if the names in the
  document are plain.
* `not_forall_paths`: a model with a dimension that no path names, and one in which two attributes
  share a path.
-/

namespace FactCube

namespace Schema

/-! ## Cutting paths -/

theorem splitPath_of_notMem {name : String} (h : '.' ∉ name.toList) :
    splitPath name = (name, none) := by
  rw [splitPath, Text.splitFirst_of_notMem h]

theorem splitPath_append {name : String} (h : '.' ∉ name.toList) (rest : String) :
    splitPath (name ++ "." ++ rest) = (name, some rest) := by
  have hlist : (name ++ "." ++ rest).toList = name.toList ++ '.' :: rest.toList := by simp
  rw [splitPath, hlist, Text.splitFirst_append h]
  simp

/-- The dimension that a path names has no point in its name. -/
theorem notMem_splitPath (path : String) : '.' ∉ (splitPath path).1.toList := by
  rw [splitPath]
  cases hsplit : Text.splitFirst '.' path.toList with
  | none => exact Text.not_mem_of_splitFirst_eq_none hsplit
  | some halves =>
    obtain ⟨head, tail⟩ := halves
    rw [String.toList_ofList]
    exact Text.not_mem_of_splitFirst hsplit

end Schema

/-! ## Looking names up -/

namespace Dimension

/-- The field of a dimension at a position that the rest of a path names. -/
def fieldOf? (d : Dimension) (index : Nat) (tail : Option String) : Option Field :=
  match d.content, tail with
  | .scalar _ _, none => some (.scalar index)
  | .scalar datatype _, some part =>
    if datatype == .date then (DatePart.ofName? part).map fun part => .datePart index part
    else none
  | .compound _, tail =>
    (d.attributeIndex? (tail.getD nameAttribute)).map fun position => .component index position

/-- The position of a name is the first one that has it. -/
theorem attributeIndex?_eq_some_iff {d : Dimension} {name : String} {position : Nat} :
    d.attributeIndex? name = some position ↔
      (∃ a, d.attributes[position]? = some a ∧ a.name = name) ∧
        ∀ earlier < position, Schema.attributeName d earlier ≠ name := by
  rw [attributeIndex?, List.findIdx?_eq_some_iff_getElem]
  constructor
  · rintro ⟨hlt, hname, hbefore⟩
    refine ⟨⟨_, List.getElem?_eq_getElem hlt, by simpa using hname⟩, fun earlier h => ?_⟩
    rw [Schema.attributeName, List.getElem?_eq_getElem (by omega)]
    simpa using hbefore earlier h
  · rintro ⟨⟨a, ha, hname⟩, hbefore⟩
    obtain ⟨hlt, rfl⟩ := List.getElem?_eq_some_iff.1 ha
    refine ⟨hlt, by simpa using hname, fun earlier h => ?_⟩
    have hne := hbefore earlier h
    rw [Schema.attributeName, List.getElem?_eq_getElem (by omega)] at hne
    simpa using hne

theorem dimension_of_fieldOf? {d : Dimension} {index : Nat} {tail : Option String} {field : Field}
    (h : d.fieldOf? index tail = some field) : field.dimension = index := by
  unfold fieldOf? at h
  split at h
  · cases h
    rfl
  · split at h
    · obtain ⟨part, -, rfl⟩ := Option.map_eq_some_iff.1 h
      rfl
    · cases h
  · obtain ⟨position, -, rfl⟩ := Option.map_eq_some_iff.1 h
    rfl

theorem attributeIndex?_of_fieldOf? {d : Dimension} {index position : Nat} {tail : Option String}
    (h : d.fieldOf? index tail = some (.component index position)) :
    d.attributeIndex? (tail.getD nameAttribute) = some position := by
  unfold fieldOf? at h
  split at h
  · cases h
  · split at h
    · simp at h
    · cases h
  · simpa using h

/-- Whether a dimension shows a field of it to a path: the name of the dimension has no point, and an
attribute is the first of its name. -/
structure ShowsField (d : Dimension) (field : Field) : Prop where
  no_point : '.' ∉ d.name.toList
  first : ∀ index position, field = .component index position →
    ∀ earlier < position, Schema.attributeName d earlier ≠ Schema.attributeName d position

end Dimension

namespace Schema

variable {schema : Schema}

theorem resolve?_eq (schema : Schema) (path : String) :
    schema.resolve? path =
      (schema.dimensionIndex? (splitPath path).1).bind fun index =>
        (schema.dimensions[index]?).bind fun d => d.fieldOf? index (splitPath path).2 := by
  simp only [resolve?]
  cases schema.dimensionIndex? (splitPath path).1 with
  | none => rfl
  | some index =>
    rw [Option.bind_some]
    simp only
    cases schema.dimensions[index]? <;> rfl

/-- Where names are distinct, a name has the position of its only dimension. -/
theorem dimensionIndex?_eq_some_iff (hnames : (schema.dimensions.map Dimension.name).Nodup)
    {name : String} {index : Nat} :
    schema.dimensionIndex? name = some index ↔
      ∃ d, schema.dimensions[index]? = some d ∧ d.name = name := by
  rw [dimensionIndex?, List.findIdx?_eq_some_iff_getElem]
  constructor
  · rintro ⟨hlt, hname, -⟩
    exact ⟨_, List.getElem?_eq_getElem hlt, by simpa using hname⟩
  · rintro ⟨d, hd, rfl⟩
    obtain ⟨hlt, rfl⟩ := List.getElem?_eq_some_iff.1 hd
    have hapart := List.pairwise_iff_getElem.1 (List.pairwise_map.1 hnames)
    exact ⟨hlt, by simp, fun earlier h => by simpa using hapart earlier index (by omega) hlt h⟩

/-- A path names a field of the dimension whose name it starts with. -/
theorem resolve?_eq_some_iff (hnames : (schema.dimensions.map Dimension.name).Nodup)
    {path : String} {field : Field} :
    schema.resolve? path = some field ↔
      ∃ d, schema.dimensions[field.dimension]? = some d ∧ d.name = (splitPath path).1 ∧
        d.fieldOf? field.dimension (splitPath path).2 = some field := by
  simp only [resolve?_eq, Option.bind_eq_some_iff]
  constructor
  · rintro ⟨index, hindex, d, hd, hfield⟩
    obtain ⟨d', hd', hname⟩ := (dimensionIndex?_eq_some_iff hnames).1 hindex
    rw [hd, Option.some.injEq] at hd'
    rw [Dimension.dimension_of_fieldOf? hfield]
    exact ⟨d, hd, by rw [hd', hname], hfield⟩
  · rintro ⟨d, hd, hname, hfield⟩
    exact ⟨_, (dimensionIndex?_eq_some_iff hnames).2 ⟨d, hd, hname⟩, d, hd, hfield⟩

/-! ## There and back -/

/-- Whether a field has a dimension that shows it. -/
def Shows (schema : Schema) (field : Field) : Prop :=
  ∃ d, schema.dimensions[field.dimension]? = some d ∧ d.ShowsField field

theorem attributeName_eq {d : Dimension} {position : Nat} {a : Attribute}
    (h : d.attributes[position]? = some a) : attributeName d position = a.name := by
  rw [attributeName, h]
  rfl

/-- What follows the name of the dimension in the path of a field. -/
def pathTail (d : Dimension) : Field → Option String
  | .scalar _ => none
  | .component _ position => some (attributeName d position)
  | .datePart _ part => some part.name

theorem splitPath_pathOf {field : Field} {d : Dimension}
    (hd : schema.dimensions[field.dimension]? = some d) (h : '.' ∉ d.name.toList) :
    splitPath (schema.pathOf field) = (d.name, pathTail d field) := by
  rw [pathOf, hd]
  cases field with
  | scalar index => exact splitPath_of_notMem h
  | component index position => exact splitPath_append h _
  | datePart index part => exact splitPath_append h _

/-- A field is found again among those of its dimension iff it is the first of its name. -/
theorem fieldOf?_pathTail_iff {field : Field} (hfield : schema.HasField field) {d : Dimension}
    (hd : schema.dimensions[field.dimension]? = some d) :
    d.fieldOf? field.dimension (pathTail d field) = some field ↔
      ∀ index position, field = .component index position →
        ∀ earlier < position, attributeName d earlier ≠ attributeName d position := by
  cases hfield with
  | @scalar index _ _ _ hd' hcontent =>
    rw [show schema.dimensions[index]? = some d from hd, Option.some.injEq] at hd'
    subst hd'
    exact iff_of_true (by simp [Dimension.fieldOf?, pathTail, hcontent, Field.dimension])
      fun _ _ h => by cases h
  | @component index position _ attributes hd' hcontent hlt =>
    rw [show schema.dimensions[index]? = some d from hd, Option.some.injEq] at hd'
    subst hd'
    have hget : d.attributes[position]? = some attributes[position] := by
      rw [Dimension.attributes, hcontent]
      exact List.getElem?_eq_getElem hlt
    have hname := attributeName_eq hget
    simp only [Dimension.fieldOf?, pathTail, hcontent, Field.dimension, Option.getD_some,
      Option.map_eq_some_iff, Field.component.injEq, true_and, exists_eq_right,
      Dimension.attributeIndex?_eq_some_iff]
    constructor
    · rintro ⟨-, hbefore⟩ _ _ ⟨-, rfl⟩
      exact hbefore
    · exact fun h => ⟨⟨_, hget, hname.symm⟩, h index position ⟨rfl, rfl⟩⟩
  | @datePart index _ _ part hd' hcontent =>
    rw [show schema.dimensions[index]? = some d from hd, Option.some.injEq] at hd'
    subst hd'
    refine iff_of_true ?_ fun _ _ h => by cases h
    cases part <;>
      simp [Dimension.fieldOf?, pathTail, hcontent, Field.dimension, DatePart.name,
        DatePart.ofName?]

/-- The path of a field leads back to it iff its dimension shows it. -/
theorem resolve?_pathOf_iff (hnames : (schema.dimensions.map Dimension.name).Nodup)
    {field : Field} (hfield : schema.HasField field) :
    schema.resolve? (schema.pathOf field) = some field ↔ schema.Shows field := by
  rw [resolve?_eq_some_iff hnames, Shows]
  refine exists_congr fun d => and_congr_right fun hd => ?_
  constructor
  · rintro ⟨hname, hfound⟩
    have hpoint : '.' ∉ d.name.toList := hname ▸ notMem_splitPath _
    rw [splitPath_pathOf hd hpoint] at hfound
    exact ⟨hpoint, (fieldOf?_pathTail_iff hfield hd).1 hfound⟩
  · rintro ⟨hpoint, hfirst⟩
    rw [splitPath_pathOf hd hpoint]
    exact ⟨rfl, (fieldOf?_pathTail_iff hfield hd).2 hfirst⟩

/-- The first attribute of a name has a value in every fact. -/
theorem hasField_component {index position : Nat} {d : Dimension} {name : String}
    (hd : schema.dimensions[index]? = some d) (hposition : d.attributeIndex? name = some position) :
    schema.HasField (.component index position) := by
  obtain ⟨⟨a, ha, -⟩, -⟩ := Dimension.attributeIndex?_eq_some_iff.1 hposition
  cases hcontent : d.content with
  | scalar datatype default? => simp [Dimension.attributes, hcontent] at ha
  | compound attributes =>
    rw [Dimension.attributes, hcontent] at ha
    exact .component hd hcontent (List.getElem?_eq_some_iff.1 ha).1

/-- A point-free name and the first attribute of a name make up a path to it. -/
theorem resolve?_pathOf_component (hnames : (schema.dimensions.map Dimension.name).Nodup)
    {index position : Nat} {d : Dimension} {name : String}
    (hd : schema.dimensions[index]? = some d) (hpoint : '.' ∉ d.name.toList)
    (hposition : d.attributeIndex? name = some position) :
    schema.resolve? (schema.pathOf (.component index position)) =
      some (.component index position) := by
  obtain ⟨⟨a, ha, hname⟩, hbefore⟩ := Dimension.attributeIndex?_eq_some_iff.1 hposition
  refine (resolve?_pathOf_iff hnames (hasField_component hd hposition)).2 ⟨d, hd, hpoint, ?_⟩
  rintro _ _ ⟨rfl, rfl⟩ earlier hearlier
  rw [attributeName_eq ha, hname]
  exact hbefore earlier hearlier

/-- A field that some path names is named by its own path. -/
theorem resolve?_pathOf_of_resolve? (hnames : (schema.dimensions.map Dimension.name).Nodup)
    {path : String} {field : Field} (h : schema.resolve? path = some field) :
    schema.resolve? (schema.pathOf field) = some field := by
  obtain ⟨d, hd, hname, hfield⟩ := (resolve?_eq_some_iff hnames).1 h
  have hpoint : '.' ∉ d.name.toList := hname ▸ notMem_splitPath path
  cases field with
  | component index position =>
    exact resolve?_pathOf_component hnames hd hpoint (Dimension.attributeIndex?_of_fieldOf? hfield)
  | scalar index =>
    exact (resolve?_pathOf_iff hnames (hasField_of_resolve? h)).2
      ⟨d, hd, hpoint, fun _ _ heq => by cases heq⟩
  | datePart index part =>
    exact (resolve?_pathOf_iff hnames (hasField_of_resolve? h)).2
      ⟨d, hd, hpoint, fun _ _ heq => by cases heq⟩

end Schema

/-! ## Mapped fields -/

namespace Validation

theorem mem_slots_iff {dimensions : List Dimension} {slot : Slot} :
    slot ∈ slots dimensions ↔ ∃ index d, dimensions[index]? = some d ∧ slot ∈ slotsOf index d := by
  rw [slots, List.mem_flatMap]
  constructor
  · rintro ⟨⟨d, index⟩, hd, hslot⟩
    exact ⟨index, d, List.mem_zipIdx_iff_getElem?.1 hd, hslot⟩
  · rintro ⟨index, d, hd, hslot⟩
    exact ⟨(d, index), List.mem_zipIdx_iff_getElem?.2 hd, hslot⟩

/-- A slot is a field of the schema and has its path. -/
theorem hasField_of_mem_slots {schema : Schema} {slot : Slot}
    (h : slot ∈ slots schema.dimensions) :
    schema.HasField slot.target ∧ schema.pathOf slot.target = slot.path := by
  obtain ⟨index, d, hd, hslot⟩ := mem_slots_iff.1 h
  rw [slotsOf] at hslot
  split at hslot
  · rename_i datatype default? hcontent
    rw [List.mem_singleton] at hslot
    subst hslot
    exact ⟨.scalar hd hcontent, by simp only [Schema.pathOf, Field.dimension, hd]⟩
  · rename_i attributes hcontent
    obtain ⟨⟨a, position⟩, ha, rfl⟩ := List.mem_map.1 hslot
    obtain ⟨hlt, hget⟩ := List.getElem?_eq_some_iff.1 (List.mem_zipIdx_iff_getElem?.1 ha)
    refine ⟨.component hd hcontent hlt, ?_⟩
    simp only [Schema.pathOf, Field.dimension, hd, Schema.attributeName, Dimension.attributes,
      hcontent, List.getElem?_eq_getElem hlt, hget, Option.map_some, Option.getD_some]

theorem pairwise_zipIdx {α : Type} (as : List α) :
    as.zipIdx.Pairwise fun a b => a.2 ≠ b.2 := by
  have hnodup : (as.zipIdx.map Prod.snd).Nodup := by
    rw [List.zipIdx_map_snd]
    exact List.nodup_range'
  exact List.pairwise_map.1 hnodup

/-- No two slots are the same place of a record. -/
theorem nodup_targets (dimensions : List Dimension) :
    ((slots dimensions).map Slot.target).Nodup := by
  rw [slots, List.map_flatMap, List.nodup_flatMap]
  constructor
  · rintro ⟨d, index⟩ -
    show ((slotsOf index d).map Slot.target).Nodup
    rw [slotsOf]
    split
    · exact List.nodup_singleton _
    · rename_i attributes _
      rw [List.map_map]
      refine List.Pairwise.map _ (fun a b hne heq => hne ?_) (pairwise_zipIdx attributes)
      exact (Field.component.inj heq).2
  · refine (pairwise_zipIdx dimensions).imp fun {a b} hne => ?_
    rw [Function.onFun, List.disjoint_left]
    intro target ha hb
    obtain ⟨slot, hslot, rfl⟩ := List.mem_map.1 ha
    obtain ⟨other, hother, heq⟩ := List.mem_map.1 hb
    exact hne (by rw [← dimension_of_mem_slotsOf hslot, ← dimension_of_mem_slotsOf hother, heq])

/-- The names of the attributes of a compound dimension are as declared. -/
theorem Stands.attributeNames {entry : String × DimensionSpec} {d : Dimension}
    (h : Stands entry d) (hcompound : d.isCompound = true) :
    d.attributes.map Attribute.name = entry.2.attributes.map Prod.fst := by
  have hspec : entry.2.isCompound = true := h.shape ▸ hcompound
  have hpaths := congrArg (List.map Slot.path) (h.slots 0)
  cases hcontent : d.content with
  | scalar datatype default? => simp [Dimension.isCompound, hcontent] at hcompound
  | compound attributes =>
    rw [slotsOf, hcontent, DimensionSpec.slots, if_pos hspec, h.name_eq] at hpaths
    have hinjective : Function.Injective fun name => entry.1 ++ "." ++ name :=
      fun _ _ heq => (String.append_right_inj _).1 heq
    refine List.map_injective_iff.2 hinjective ?_
    rw [Dimension.attributes, hcontent, List.map_map, List.map_map]
    simp only [List.map_map] at hpaths
    rw [← List.zipIdx_map_fst 0 attributes, ← List.zipIdx_map_fst 0 entry.2.attributes,
      List.map_map, List.map_map]
    exact hpaths

end Validation

/-! ## Validated schemas -/

/-- Whether every name in a document can be told from a path: the names of dimensions hold no point,
and no compound dimension declares an attribute twice. -/
structure Document.PlainNames (doc : Document) : Prop where
  no_point : ∀ entry ∈ doc.dimensions, '.' ∉ entry.1.toList
  attributes_nodup : ∀ entry ∈ doc.dimensions, entry.2.isCompound = true →
    (entry.2.attributes.map Prod.fst).Nodup

/-- Whether a dimension shows all its fields. -/
structure Dimension.ShowsAll (d : Dimension) : Prop where
  no_point : '.' ∉ d.name.toList
  attributes_nodup : (d.attributes.map Attribute.name).Nodup

theorem Dimension.attributes_eq_nil {d : Dimension} (h : d.isCompound = false) :
    d.attributes = [] := by
  unfold isCompound at h
  unfold attributes
  split at h
  · cases h
  · rfl

namespace Validation

/-- A declaration is plain iff its dimension shows all its fields. -/
theorem Stands.showsAll_iff {entry : String × DimensionSpec} {d : Dimension}
    (h : Stands entry d) :
    d.ShowsAll ↔ '.' ∉ entry.1.toList ∧
      (entry.2.isCompound = true → (entry.2.attributes.map Prod.fst).Nodup) := by
  rw [← h.name_eq, ← h.shape]
  constructor
  · rintro ⟨hpoint, hnodup⟩
    exact ⟨hpoint, fun hcompound => h.attributeNames hcompound ▸ hnodup⟩
  · rintro ⟨hpoint, hnodup⟩
    refine ⟨hpoint, ?_⟩
    cases hcompound : d.isCompound with
    | true => exact h.attributeNames hcompound ▸ hnodup hcompound
    | false => simp [d.attributes_eq_nil hcompound]

/-- A dimension shows all its fields iff it shows those of its slots, provided it has one. -/
theorem forall_showsField_iff {d : Dimension} {index : Nat} (hslots : slotsOf index d ≠ []) :
    (∀ slot ∈ slotsOf index d, d.ShowsField slot.target) ↔ d.ShowsAll := by
  constructor
  · intro h
    obtain ⟨slot, hslot⟩ := List.exists_mem_of_ne_nil _ hslots
    refine ⟨(h slot hslot).no_point, ?_⟩
    cases hcontent : d.content with
    | scalar datatype default? => simp [Dimension.attributes, hcontent]
    | compound attributes =>
      rw [List.Nodup, List.pairwise_map, List.pairwise_iff_getElem]
      intro earlier position hearlier hposition hlt
      have hattributes : d.attributes = attributes := by rw [Dimension.attributes, hcontent]
      obtain ⟨slot, hslot, htarget⟩ :
          ∃ slot ∈ slotsOf index d, slot.target = .component index position := by
        obtain ⟨a, ha⟩ : ∃ a, attributes[position]? = some a :=
          ⟨_, List.getElem?_eq_getElem (by rw [← hattributes]; exact hposition)⟩
        simp only [slotsOf, hcontent, List.mem_map, Prod.exists, List.mem_zipIdx_iff_getElem?]
        exact ⟨_, ⟨a, position, ha, rfl⟩, rfl⟩
      have hfirst := (h slot hslot).first index position htarget earlier hlt
      rwa [Schema.attributeName_eq (List.getElem?_eq_getElem hearlier),
        Schema.attributeName_eq (List.getElem?_eq_getElem hposition)] at hfirst
  · rintro ⟨hpoint, hnodup⟩ slot hslot
    refine ⟨hpoint, fun _ position htarget earlier hlt => ?_⟩
    have hposition : position < d.attributes.length := by
      unfold slotsOf at hslot
      split at hslot
      · rw [List.mem_singleton] at hslot
        rw [hslot] at htarget
        cases htarget
      · rename_i attributes hcontent
        obtain ⟨⟨a, place⟩, ha, rfl⟩ := List.mem_map.1 hslot
        cases htarget
        rw [Dimension.attributes, hcontent]
        exact (List.getElem?_eq_some_iff.1 (List.mem_zipIdx_iff_getElem?.1 ha)).1
    have hapart := List.pairwise_iff_getElem.1 (List.pairwise_map.1 hnodup)
    rw [Schema.attributeName_eq (List.getElem?_eq_getElem (Nat.lt_trans hlt hposition)),
      Schema.attributeName_eq (List.getElem?_eq_getElem hposition)]
    exact hapart earlier position _ hposition hlt

theorem slotsOf_ne_nil {d : Dimension} {datatype : DataType} (h : keyType? d = some datatype)
    (index : Nat) : slotsOf index d ≠ [] := by
  unfold keyType? at h
  unfold slotsOf
  split at h
  · exact List.cons_ne_nil _ _
  · rename_i attributes hcontent
    obtain ⟨a, ha, -⟩ := Option.map_eq_some_iff.1 h
    have hmem := List.mem_of_find?_eq_some ha
    rw [Dimension.attributes, hcontent] at hmem
    simpa using List.ne_nil_of_mem hmem

end Validation

namespace Document

variable {doc : Document} {schema : Schema}

/-- Every dimension of a validated schema has a slot. -/
theorem slotsOf_ne_nil_of_validate (h : doc.validate = .ok schema) {d : Dimension}
    (hd : d ∈ schema.dimensions) (index : Nat) : Validation.slotsOf index d ≠ [] := by
  obtain ⟨datatype, htype⟩ := exists_keyType_of_validate h hd
  exact Validation.slotsOf_ne_nil htype index

/-- All mapped fields are shown iff the names in the document are plain. -/
theorem forall_shows_iff (h : doc.validate = .ok schema) :
    (∀ field ∈ schema.fields, schema.Shows field.target) ↔ doc.PlainNames := by
  have hdimensions : (∀ field ∈ schema.fields, schema.Shows field.target) ↔
      ∀ d ∈ schema.dimensions, d.ShowsAll := by
    have hfields := (Document.wellFormed_of_validate h).fields_slots
    constructor
    · intro hshows d hd
      obtain ⟨index, hlt, rfl⟩ := List.mem_iff_getElem.1 hd
      refine (Validation.forall_showsField_iff (slotsOf_ne_nil_of_validate h hd index)).1 ?_
      intro slot hslot
      have hmem : slot ∈ schema.fields.map MappedField.slot := by
        rw [hfields, Validation.mem_slots_iff]
        exact ⟨index, _, List.getElem?_eq_getElem hlt, hslot⟩
      obtain ⟨field, hfield, rfl⟩ := List.mem_map.1 hmem
      obtain ⟨d, hd', hshown⟩ := hshows field hfield
      rw [show field.target.dimension = index from dimension_of_mem_slotsOf hslot,
        List.getElem?_eq_getElem hlt, Option.some.injEq] at hd'
      rw [hd']
      exact hshown
    · intro hshows field hfield
      have hmem : field.slot ∈ Validation.slots schema.dimensions :=
        hfields ▸ List.mem_map_of_mem hfield
      obtain ⟨index, d, hd, hslot⟩ := Validation.mem_slots_iff.1 hmem
      have hall := hshows d (List.mem_of_getElem? hd)
      refine ⟨d, ?_, (Validation.forall_showsField_iff (List.ne_nil_of_mem hslot)).2 hall _ hslot⟩
      rw [show field.target.dimension = index from dimension_of_mem_slotsOf hslot]
      exact hd
  rw [hdimensions]
  rw [← Validation.forall_mem_iff_of_forall₂ (Document.forall₂_of_validate h) fun _ _ hstands =>
    hstands.showsAll_iff.symm]
  constructor
  · intro hplain
    exact ⟨fun entry hentry => (hplain entry hentry).1, fun entry hentry => (hplain entry hentry).2⟩
  · rintro ⟨hpoint, hnodup⟩ entry hentry
    exact ⟨hpoint entry hentry, hnodup entry hentry⟩

/-- The mapped fields of a validated schema have the paths of their targets, and such a path leads
back to its field exactly if the dimension shows the field. All of them can be named, each by a path
of its own, exactly if the names in the document are plain. -/
theorem paths_of_validate (h : doc.validate = .ok schema) :
    (∀ field ∈ schema.fields, schema.pathOf field.target = field.path ∧
      (schema.resolve? field.path = some field.target ↔ schema.Shows field.target)) ∧
    ((schema.fields.map MappedField.path).Nodup ∧
      (∀ field ∈ schema.fields, schema.resolve? field.path = some field.target) ↔
        doc.PlainNames) := by
  have hwell := Document.wellFormed_of_validate h
  have hfields : ∀ field ∈ schema.fields, schema.pathOf field.target = field.path ∧
      (schema.resolve? field.path = some field.target ↔ schema.Shows field.target) := by
    intro field hfield
    have hmem : field.slot ∈ Validation.slots schema.dimensions :=
      hwell.fields_slots ▸ List.mem_map_of_mem hfield
    obtain ⟨hfield, hpath⟩ := Validation.hasField_of_mem_slots hmem
    have hpath : schema.pathOf field.target = field.path := hpath
    exact ⟨hpath, hpath ▸ Schema.resolve?_pathOf_iff hwell.names_nodup hfield⟩
  refine ⟨hfields, ?_⟩
  rw [← forall_shows_iff h]
  constructor
  · rintro ⟨-, hresolve⟩ field hfield
    exact (hfields field hfield).2.1 (hresolve field hfield)
  · intro hshows
    have hresolve : ∀ field ∈ schema.fields, schema.resolve? field.path = some field.target :=
      fun field hfield => (hfields field hfield).2.2 (hshows field hfield)
    refine ⟨List.Nodup.of_map schema.resolve? ?_, hresolve⟩
    -- distinct targets are read off the paths, so the paths are distinct
    have htargets : (schema.fields.map MappedField.path).map schema.resolve? =
        ((schema.fields.map MappedField.slot).map Validation.Slot.target).map some := by
      simp only [List.map_map]
      exact List.map_congr_left hresolve
    rw [htargets, hwell.fields_slots]
    exact (Validation.nodup_targets _).map (Option.some_injective _)

end Document

/-! ## Samples -/

theorem Document.paths_of_validate_sample :
    (Sample.document true).validate = .ok (Sample.schema true) ∧
      ((Sample.schema true).fields.map MappedField.path).Nodup ∧
      ∀ field ∈ (Sample.schema true).fields,
        (Sample.schema true).resolve? field.path = some field.target := by
  refine ⟨Sample.validate true, (Document.paths_of_validate (Sample.validate true)).2.2 ?_⟩
  constructor
  · decide
  · decide

namespace Sample

/-- A document with a breakdown whose name holds a point. -/
def pointedDocument : Document where
  dataset := ⟨"budget", "", "", "GBP"⟩
  mapping := [("a.b", "region")]
  dimensions := [("a.b", ⟨"value", "", "", some "string", [], none, false, false, none, none, none⟩)]
  views := []

/-- The schema of the document. -/
def pointedSchema : Schema where
  dataset := ⟨"budget", "", "", "GBP"⟩
  dimensions := [⟨"a.b", .value, "", "", false, false, none, none, none, .scalar .string none⟩]
  fields := [⟨"a.b", "region", .scalar 0, .string, none, false⟩]
  taxonomies := []
  views := []

theorem validate_pointed : pointedDocument.validate = .ok pointedSchema := rfl

/-- A document with an entity that declares its label twice. -/
def repeatedDocument : Document where
  dataset := ⟨"budget", "", "", "GBP"⟩
  mapping := [("to.name", "to"), ("to.label", "label")]
  dimensions :=
    [("to", ⟨"entity", "", "", none,
      [("name", ⟨"string", none⟩), ("label", ⟨"string", none⟩), ("label", ⟨"string", none⟩)],
      none, false, false, none, none, none⟩)]
  views := []

/-- The schema of the document. -/
def repeatedSchema : Schema where
  dataset := ⟨"budget", "", "", "GBP"⟩
  dimensions :=
    [⟨"to", .entity, "", "", false, false, none, none, none,
      .compound [⟨"name", .string, none⟩, ⟨"label", .string, none⟩, ⟨"label", .string, none⟩]⟩]
  fields :=
    [⟨"to.name", "to", .component 0 0, .string, none, true⟩,
     ⟨"to.label", "label", .component 0 1, .string, none, true⟩,
     ⟨"to.label", "label", .component 0 2, .string, none, true⟩]
  taxonomies := []
  views := []

theorem validate_repeated : repeatedDocument.validate = .ok repeatedSchema := rfl

end Sample

/-- A dimension with a point in its name cannot be named, and two attributes of one name share their
path. -/
theorem not_forall_paths :
    (¬ ∀ doc schema, Document.validate doc = .ok schema →
      ∀ field ∈ schema.fields, schema.resolve? field.path = some field.target) ∧
    ¬ ∀ doc schema, Document.validate doc = .ok schema →
      (schema.fields.map MappedField.path).Nodup := by
  constructor
  · intro h
    have hresolve := h _ _ Sample.validate_pointed _ List.mem_cons_self
    revert hresolve
    decide
  · intro h
    have hnodup := h _ _ Sample.validate_repeated
    revert hnodup
    decide

end FactCube
