import FactCube.Proofs.Filling

/-!
# Facts of a schema

Filling the slots of a validated schema one after the other leaves an entry for each dimension, with
values of the declared datatypes. So every field that a path names has a value in every fact, and
this value fits the datatype of the field.

Results:
* `admits_of_mapRow`: what is mapped from a row has a fitting entry for every dimension.
* `fits_of_valueAt`: the value at a field fits the datatype of the field.
* `exists_valueAt`: a field of the schema has a value in every fact.
-/

namespace FactCube

/-! ## Contents that fit -/

/-- Whether an entry can stand for a dimension. -/
inductive Entry.Fits (d : Dimension) : Entry → Prop
  | scalar {datatype : DataType} {default? : Option Value} {value : Value} :
    d.content = .scalar datatype default? → value.Fits datatype → Fits d (.scalar value)
  | compound {attributes : List Attribute} {values : List Value} :
    d.content = .compound attributes →
    List.Forall₂ (fun (a : Attribute) (value : Value) => value.Fits a.datatype) attributes values →
    Fits d (.compound values)

/-- Whether contents have a fitting entry for every dimension. -/
def Schema.Admits (schema : Schema) (contents : Contents) : Prop :=
  List.Forall₂ Entry.Fits schema.dimensions contents

/-- Whether a record holds what some row is mapped to. Its id may carry an ordinal. -/
def Schema.IsFact (schema : Schema) (record : Record) : Prop :=
  ∃ row mapped, mapRow schema row = .ok mapped ∧ record.contents = mapped.contents

/-! ## Filling slots -/

theorem fits_of_slotValue {row : Row} {field : MappedField} {value : Value}
    (hsound : field.slot.Sound) (h : slotValue row field = .ok value) :
    value.Fits field.datatype := by
  unfold slotValue at h
  split at h
  · split at h
    · rename_i text _ found hfound
      cases h
      exact Value.fits_of_ofText hfound
    · cases h
  · split at h
    · rename_i found hfound
      cases h
      exact hsound.default_fits _ hfound
    · split at h
      · rename_i hoptional
        cases h
        rw [show field.datatype = .string from hsound.optional_string hoptional]
        exact Value.fits_string ""
      · cases h

/-- An entry that holds fitting values for the slots of a dimension can stand for it. -/
theorem Entry.Holds.fits {index : Nat} {d : Dimension} {entry : Entry}
    (h : entry.Holds (fun slot value => value.Fits slot.datatype) index d) : entry.Fits d := by
  obtain ⟨hshape, hvalues⟩ := h
  rw [Validation.slotsOf] at hvalues
  cases hcontent : d.content with
  | scalar datatype default? =>
    rw [hcontent] at hvalues
    cases entry with
    | scalar value => exact .scalar hcontent (List.forall₂_cons.1 hvalues).1
    | compound values =>
      rw [Dimension.isCompound, hcontent] at hshape
      cases hshape
  | compound attributes =>
    simp only [hcontent, List.forall₂_map_left_iff] at hvalues
    cases entry with
    | scalar value =>
      rw [Dimension.isCompound, hcontent] at hshape
      cases hshape
    | compound values =>
      refine .compound hcontent ?_
      rw [← List.zipIdx_map_fst 0 attributes, List.forall₂_map_left_iff]
      exact hvalues

/-- What is mapped from a row has a fitting entry for every dimension. -/
theorem admits_of_mapRow {schema : Schema} (hschema : schema.WellFormed) {row : Row}
    {record : Record} (h : mapRow schema row = .ok record) : schema.Admits record.contents := by
  have hholds := holds_of_mapRow hschema h
    (R := fun slot value => value.Fits slot.datatype) fun field hfield value hvalue => by
      refine fits_of_slotValue (hschema.slots_sound _ ?_) hvalue
      rw [← hschema.fields_slots]
      exact List.mem_map_of_mem hfield
  rw [Schema.Admits, ← List.zipIdx_map_fst 0 schema.dimensions, List.forall₂_map_left_iff]
  exact hholds.imp fun _ _ => Entry.Holds.fits

theorem Schema.IsFact.admits {schema : Schema} (hschema : schema.WellFormed) {record : Record}
    (h : schema.IsFact record) : schema.Admits record.contents := by
  obtain ⟨row, mapped, hmapped, hcontents⟩ := h
  rw [hcontents]
  exact admits_of_mapRow hschema hmapped

/-! ## Values at fields -/

/-- The places of a schema that have a value in every fact. -/
inductive Schema.HasField (schema : Schema) : Field → Prop
  | scalar {index : Nat} {d : Dimension} {datatype : DataType} {default? : Option Value} :
    schema.dimensions[index]? = some d → d.content = .scalar datatype default? →
    HasField schema (.scalar index)
  | component {index position : Nat} {d : Dimension} {attributes : List Attribute} :
    schema.dimensions[index]? = some d → d.content = .compound attributes →
    position < attributes.length → HasField schema (.component index position)
  | datePart {index : Nat} {d : Dimension} {default? : Option Value} {part : DatePart} :
    schema.dimensions[index]? = some d → d.content = .scalar .date default? →
    HasField schema (.datePart index part)

/-- A path names a field of the schema. -/
theorem Schema.hasField_of_resolve? {schema : Schema} {path : String} {field : Field}
    (h : schema.resolve? path = some field) : schema.HasField field := by
  simp only [resolve?] at h
  split at h
  · cases h
  · rename_i index _
    split at h
    · cases h
    · rename_i d hd
      split at h
      · rename_i hcontent _
        cases h
        exact .scalar hd hcontent
      · rename_i datatype default? part hcontent _
        split at h
        · rename_i hdate
          obtain rfl : datatype = .date := by simpa using hdate
          rw [Option.map_eq_some_iff] at h
          obtain ⟨part, -, rfl⟩ := h
          exact .datePart hd hcontent
        · cases h
      · rename_i attributes hcontent
        rw [Option.map_eq_some_iff] at h
        obtain ⟨position, hposition, rfl⟩ := h
        refine .component hd hcontent ?_
        rw [Dimension.attributeIndex?, Dimension.attributes, hcontent] at hposition
        exact (List.findIdx?_eq_some_iff_getElem.1 hposition).1

theorem Schema.Admits.entry {schema : Schema} {contents : Contents} (h : schema.Admits contents)
    {index : Nat} {entry : Entry} (hentry : contents[index]? = some entry) :
    ∃ d, schema.dimensions[index]? = some d ∧ entry.Fits d := by
  obtain ⟨hlt, rfl⟩ := List.getElem?_eq_some_iff.1 hentry
  have hlength : schema.dimensions.length = contents.length := List.Forall₂.length_eq h
  exact ⟨_, List.getElem?_eq_getElem (by omega), List.Forall₂.get h (by omega) hlt⟩

theorem Schema.Admits.exists_entry {schema : Schema} {contents : Contents}
    (h : schema.Admits contents) {index : Nat} {d : Dimension}
    (hd : schema.dimensions[index]? = some d) :
    ∃ entry, contents[index]? = some entry ∧ entry.Fits d := by
  obtain ⟨hlt, rfl⟩ := List.getElem?_eq_some_iff.1 hd
  have hlength : schema.dimensions.length = contents.length := List.Forall₂.length_eq h
  exact ⟨_, List.getElem?_eq_getElem (by omega), List.Forall₂.get h hlt (by omega)⟩

theorem Schema.typeOf_scalar {schema : Schema} {index : Nat} {d : Dimension}
    {datatype : DataType} {default? : Option Value} (hd : schema.dimensions[index]? = some d)
    (hcontent : d.content = .scalar datatype default?) :
    schema.typeOf (.scalar index) = datatype := by
  simp only [typeOf, Field.dimension, hd, Dimension.scalarType?, hcontent, Option.getD_some]

theorem Schema.typeOf_component {schema : Schema} {index position : Nat} {d : Dimension}
    {attributes : List Attribute} (hd : schema.dimensions[index]? = some d)
    (hcontent : d.content = .compound attributes) (hlt : position < attributes.length) :
    schema.typeOf (.component index position) = attributes[position].datatype := by
  simp only [typeOf, Field.dimension, hd, Dimension.attributes, hcontent,
    List.getElem?_eq_getElem hlt, Option.map_some, Option.getD_some]

theorem Schema.typeOf_datePart (schema : Schema) (index : Nat) (part : DatePart) :
    schema.typeOf (.datePart index part) = .string := by
  simp only [typeOf]
  split <;> first | rfl | contradiction

/-- The value at a field fits the datatype of the field. -/
theorem fits_of_valueAt {schema : Schema} {contents : Contents} (h : schema.Admits contents)
    {field : Field} {value : Value} (hvalue : valueAt contents field = some value) :
    value.Fits (schema.typeOf field) := by
  unfold valueAt at hvalue
  split at hvalue
  · rename_i index found hentry
    cases hvalue
    obtain ⟨d, hd, hfits⟩ := h.entry hentry
    cases hfits with
    | scalar hcontent hfits =>
      rw [@Schema.typeOf_scalar _ index _ _ _ hd hcontent]
      exact hfits
  · rename_i index position values hentry
    obtain ⟨d, hd, hfits⟩ := h.entry hentry
    cases hfits with
    | compound hcontent hfits =>
      obtain ⟨hlt, rfl⟩ := List.getElem?_eq_some_iff.1 hvalue
      have hlength := List.Forall₂.length_eq hfits
      rw [@Schema.typeOf_component _ index _ _ _ hd hcontent (by omega)]
      exact List.Forall₂.get hfits (by omega) hlt
  · cases hvalue
    rw [Schema.typeOf_datePart]
    exact Value.fits_string _
  · cases hvalue
    rw [Schema.typeOf_datePart]
    exact Value.fits_string _
  · cases hvalue

/-- A field of the schema has a value in every fact. -/
theorem exists_valueAt {schema : Schema} {contents : Contents} (h : schema.Admits contents)
    {field : Field} (hfield : schema.HasField field) :
    ∃ value, valueAt contents field = some value := by
  cases hfield with
  | scalar hd hcontent =>
    obtain ⟨entry, hentry, hfits⟩ := h.exists_entry hd
    cases hfits with
    | scalar => exact ⟨_, by simp only [valueAt, Field.dimension, hentry]; rfl⟩
    | compound hcontent' => simp [hcontent] at hcontent'
  | component hd hcontent hlt =>
    obtain ⟨entry, hentry, hfits⟩ := h.exists_entry hd
    cases hfits with
    | scalar hcontent' => simp [hcontent] at hcontent'
    | @compound attributes values hcontent' hfits =>
      rw [hcontent, DimensionContent.compound.injEq] at hcontent'
      subst hcontent'
      have hlength := List.Forall₂.length_eq hfits
      simp only [valueAt, Field.dimension, hentry]
      exact ⟨_, List.getElem?_eq_getElem (by omega)⟩
  | @datePart index d default? part hd hcontent =>
    obtain ⟨entry, hentry, hfits⟩ := h.exists_entry hd
    cases hfits with
    | @scalar datatype default? value hcontent' hfits =>
      rw [hcontent, DimensionContent.scalar.injEq] at hcontent'
      obtain ⟨rfl, -⟩ := hcontent'
      cases value with
      | date period =>
        cases part <;> exact ⟨_, by simp only [valueAt, Field.dimension, hentry]; rfl⟩
      | _ => cases hfits.dataType_eq
    | compound hcontent' => simp [hcontent] at hcontent'

/-! ## A sample -/

theorem Row.get?_empty (asked : String) : Row.empty.get? asked = none :=
  Std.HashMap.getElem?_empty

theorem Row.get?_insert (row : Row) (column text asked : String) :
    (row.insert column text).get? asked = if column == asked then some text else row.get? asked :=
  Std.HashMap.getElem?_insert

namespace Sample

/-- A document with a reference, which may be the key, a breakdown and a measure. -/
def document (keyed : Bool) : Document where
  dataset := ⟨"budget", "", "", "GBP"⟩
  mapping := [("ref", "ref"), ("region", "region"), ("amount", "amount")]
  dimensions :=
    [("ref", ⟨"value", "", "", some "string", [], none, false, keyed, none, none, none⟩),
     ("region", ⟨"value", "", "", some "string", [], none, false, false, none, none, none⟩),
     ("amount", ⟨"measure", "", "", some "float", [], none, false, false, none, none, none⟩)]
  views := [⟨"dataset", "", "regions", "dataset", "region", []⟩]

/-- The schema of the document. -/
def schema (keyed : Bool) : Schema where
  dataset := ⟨"budget", "", "", "GBP"⟩
  dimensions :=
    [⟨"ref", .value, "", "", false, keyed, none, none, none, .scalar .string none⟩,
     ⟨"region", .value, "", "", false, false, none, none, none, .scalar .string none⟩,
     ⟨"amount", .measure, "", "", false, false, none, none, none, .scalar .float none⟩]
  fields :=
    [⟨"ref", "ref", .scalar 0, .string, none, false⟩,
     ⟨"region", "region", .scalar 1, .string, none, false⟩,
     ⟨"amount", "amount", .scalar 2, .float, none, false⟩]
  taxonomies := []
  views := [⟨.dataset, "regions", "", none, "dataset", .scalar 1, "region", []⟩]

theorem validate (keyed : Bool) : (document keyed).validate = .ok (schema keyed) := by
  cases keyed <;> rfl

/-- A row of the document. -/
def row (ref region amount : String) : Row :=
  Row.ofList [("ref", ref), ("region", region), ("amount", amount)]

/-- The contents of a row. -/
def contents (ref region : String) (amount : Float) : Contents :=
  [.scalar (.string ref), .scalar (.string region), .scalar (.float amount)]

/-- The fact of a row. -/
def fact (keyed : Bool) (ref region : String) (amount : Float) : Record :=
  Record.ofContents (schema keyed) (contents ref region amount)

theorem fillSlots_row {ref region amount : String} {x : Float} (href : ref.isEmpty = false)
    (hregion : region.isEmpty = false) (hamount : amount.isEmpty = false)
    (hx : readFloat amount = .ok x) :
    fillSlots (row ref region amount) (emptyContents (schema true)) (schema true).fields =
      .ok (contents ref region x) := by
  have href' : cellText? (row ref region amount) "ref" = some ref := by
    simp [cellText?, row, Row.ofList, Row.get?_insert, href]
  have hregion' : cellText? (row ref region amount) "region" = some region := by
    simp [cellText?, row, Row.ofList, Row.get?_insert, hregion]
  have hamount' : cellText? (row ref region amount) "amount" = some amount := by
    simp [cellText?, row, Row.ofList, Row.get?_insert, hamount]
  simp only [schema, fillSlots, slotValue, href', hregion', hamount', Value.ofText, hx]
  rfl

theorem mapRow_row (keyed : Bool) {ref region amount : String} {x : Float}
    (href : ref.isEmpty = false) (hregion : region.isEmpty = false)
    (hamount : amount.isEmpty = false) (hx : readFloat amount = .ok x) :
    mapRow (schema keyed) (row ref region amount) = .ok (fact keyed ref region x) :=
  congrArg (Except.map (Record.ofContents (schema keyed)))
    (fillSlots_row href hregion hamount hx)

end Sample

end FactCube
