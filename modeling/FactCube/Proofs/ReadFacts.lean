import FactCube.Proofs.ReadBack
import FactCube.Proofs.RowMapping
import FactCube.Query.Plan

/-!
# Facts of values that were read

Whatever a fact holds was read from a text: from the cell of its column, from a declared default or,
for an optional slot, from the empty text. So each of its values is the only one of the field that is
displayed by its text. To compare the displayed text of a fact with a text, and to compare its value
with the value that is read from the text, is then the same, if the text is canonical: the display of
the value that is read from it.

Results:
* `Document.isRead_of_valueAt`: the values of a fact were read as values of their fields.
* `Value.compare_eq_iff`: values of one datatype that were read compare as equal iff they are
  displayed alike.
* `FieldPredicate.accepts_equal`: a comparison with a canonical text is one with its value.
-/

namespace FactCube

open Validation (Slot slotsOf)

/-! ## Values that were read -/

/-- Whether a value was read from some text as a value of a datatype. -/
def Value.IsRead (v : Value) (datatype : DataType) : Prop := ∃ s, ofText datatype s = .ok v

namespace Value

theorem isRead_string (s : String) : (Value.string s).IsRead .string := ⟨s, rfl⟩

theorem IsRead.fits {v : Value} {datatype : DataType} (h : v.IsRead datatype) : v.Fits datatype := by
  obtain ⟨s, hs⟩ := h
  exact fits_of_ofText hs

theorem IsRead.dataType_eq {v w : Value} {datatype : DataType} (hv : v.IsRead datatype)
    (hw : w.IsRead datatype) : v.dataType = w.dataType := by
  rw [hv.fits.dataType_eq, hw.fits.dataType_eq]

theorem IsRead.eq_of_display_eq {v w : Value} {datatype : DataType} (hv : v.IsRead datatype)
    (hw : w.IsRead datatype) (h : v.display = w.display) : v = w := by
  obtain ⟨s, hs⟩ := hv
  obtain ⟨t, ht⟩ := hw
  exact Value.eq_of_display_eq hs ht h

/-- Values of one datatype that were read compare as equal iff they are displayed alike. -/
theorem compare_eq_iff {v w : Value} {datatype : DataType} (hv : v.IsRead datatype)
    (hw : w.IsRead datatype) : v.compare w = .eq ↔ v.display = w.display := by
  constructor
  · intro h
    rw [← groupOrder_eq_compare (hv.dataType_eq hw)] at h
    rw [eq_of_groupOrder hv.fits.regular hw.fits.regular h]
  · intro h
    rw [hv.eq_of_display_eq hw h]
    exact Std.ReflCmp.compare_self

end Value

/-! ## Slots that are filled by reading -/

theorem isRead_of_declaredDefault {datatype : DataType} {literal? : Option Literal} {v : Value}
    (h : declaredDefault datatype literal? = some v) : v.IsRead datatype := by
  obtain ⟨literal, -, hliteral⟩ := Option.bind_eq_some_iff.1 h
  cases hread : Value.ofText datatype literal.display with
  | ok w =>
    rw [hread] at hliteral
    cases hliteral
    exact ⟨_, hread⟩
  | error fault =>
    rw [hread] at hliteral
    cases hliteral

theorem isRead_of_declaredSlot {path : String} {target : Field} {raw? : Option String}
    {literal? : Option Literal} {inCompound : Bool} {v : Value}
    (h : (declaredSlot path target raw? literal? inCompound).default? = some v) :
    v.IsRead (declaredSlot path target raw? literal? inCompound).datatype := by
  rw [declaredSlot] at h ⊢
  exact isRead_of_declaredDefault h

/-- The default of a slot of a document was read. -/
theorem Document.isRead_of_mem_slots {doc : Document} {slot : Slot} (hslot : slot ∈ doc.slots)
    {v : Value} (h : slot.default? = some v) : v.IsRead slot.datatype := by
  obtain ⟨⟨⟨name, spec⟩, index⟩, -, hmem⟩ := List.mem_flatMap.1 hslot
  have hmem : slot ∈ spec.slots index name := hmem
  rw [DimensionSpec.slots] at hmem
  split at hmem
  · obtain ⟨⟨⟨attr, attrSpec⟩, position⟩, -, rfl⟩ := List.mem_map.1 hmem
    exact isRead_of_declaredSlot h
  · rw [List.mem_singleton] at hmem
    subst hmem
    exact isRead_of_declaredSlot h

/-- What fills a slot was read. -/
theorem isRead_of_slotValue {row : Row} {field : MappedField} {value : Value}
    (hdefault : ∀ v, field.slot.default? = some v → v.IsRead field.slot.datatype)
    (hoptional : field.slot.optional = true → field.slot.datatype = .string)
    (h : slotValue row field = .ok value) : value.IsRead field.slot.datatype := by
  cases slotValue_eq_iff.1 h with
  | cell _ _ hread => exact ⟨_, hread⟩
  | default _ hfound => exact hdefault _ hfound
  | blank _ _ hblank =>
    rw [hoptional hblank]
    exact Value.isRead_string ""

/-! ## Values at fields -/

theorem HoldsFrom.holds {R : Slot → Value → Prop} {dimensions : List Dimension}
    {contents : Contents} (h : HoldsFrom R 0 dimensions contents) {index : Nat} {entry : Entry}
    (hentry : contents[index]? = some entry) :
    ∃ d, dimensions[index]? = some d ∧ entry.Holds R index d := by
  obtain ⟨hlt, rfl⟩ := List.getElem?_eq_some_iff.1 hentry
  have hlength : dimensions.length = contents.length := by
    rw [← List.Forall₂.length_eq h, List.length_zipIdx]
  have hholds := List.Forall₂.get h (by rw [List.length_zipIdx, hlength]; exact hlt) hlt
  simp only [List.get_eq_getElem, List.getElem_zipIdx, Nat.zero_add] at hholds
  exact ⟨_, List.getElem?_eq_getElem (by omega), hholds⟩

/-- The value of a field is that of its slot; parts of dates are texts. -/
theorem exists_slot_of_valueAt {schema : Schema} {R : Slot → Value → Prop} {contents : Contents}
    (h : HoldsFrom R 0 schema.dimensions contents) {field : Field} {value : Value}
    (hvalue : valueAt contents field = some value) :
    (∃ slot, slot.datatype = schema.typeOf field ∧ R slot value) ∨
      schema.typeOf field = .string ∧ ∃ s, value = .string s := by
  unfold valueAt at hvalue
  split at hvalue
  · rename_i index found hentry
    cases hvalue
    obtain ⟨d, hd, hshape, hvalues⟩ := h.holds hentry
    cases hcontent : d.content with
    | scalar datatype default? =>
      rw [slotsOf, hcontent] at hvalues
      refine .inl ⟨_, ?_, (List.forall₂_cons.1 hvalues).1⟩
      exact (@Schema.typeOf_scalar _ index _ _ _ hd hcontent).symm
    | compound attributes =>
      rw [Dimension.isCompound, hcontent] at hshape
      cases hshape
  · rename_i index position values hentry
    obtain ⟨d, hd, hshape, hvalues⟩ := h.holds hentry
    cases hcontent : d.content with
    | scalar datatype default? =>
      rw [Dimension.isCompound, hcontent] at hshape
      cases hshape
    | compound attributes =>
      obtain ⟨hlt, rfl⟩ := List.getElem?_eq_some_iff.1 hvalue
      simp only [slotsOf, hcontent, List.forall₂_map_left_iff, Entry.values] at hvalues
      have hlength := List.Forall₂.length_eq hvalues
      rw [List.length_zipIdx] at hlength
      have hslot := List.Forall₂.get hvalues (by rw [List.length_zipIdx]; omega) hlt
      simp only [List.get_eq_getElem, List.getElem_zipIdx, Nat.zero_add] at hslot
      refine .inl ⟨_, ?_, hslot⟩
      exact (@Schema.typeOf_component _ index position _ _ hd hcontent (by omega)).symm
  · cases hvalue
    exact .inr ⟨Schema.typeOf_datePart _ _ _, _, rfl⟩
  · cases hvalue
    exact .inr ⟨Schema.typeOf_datePart _ _ _, _, rfl⟩
  · cases hvalue

/-- The values of a fact were read as values of their fields. -/
theorem Document.isRead_of_valueAt {doc : Document} {schema : Schema}
    (hvalid : doc.validate = .ok schema) {record : Record} (hrecord : schema.IsFact record)
    {field : Field} {value : Value} (hvalue : valueAt record.contents field = some value) :
    value.IsRead (schema.typeOf field) := by
  obtain ⟨row, mapped, hmapped, hcontents⟩ := hrecord
  have hschema := Document.wellFormed_of_validate hvalid
  have hholds := holds_of_mapRow hschema hmapped (R := fun slot v => v.IsRead slot.datatype) (by
    intro field hfield v hv
    have hslot := List.mem_map_of_mem (f := MappedField.slot) hfield
    refine isRead_of_slotValue (fun _ h => ?_) (fun h => ?_) hv
    · exact isRead_of_mem_slots (Document.slots_of_validate hvalid ▸ hslot) h
    · exact (hschema.slots_sound _ (hschema.fields_slots ▸ hslot)).optional_string h)
  rw [hcontents] at hvalue
  rcases exists_slot_of_valueAt hholds hvalue with ⟨slot, htype, hread⟩ | ⟨htype, s, rfl⟩
  · rw [← htype]
    exact hread
  · rw [htype]
    exact Value.isRead_string s

/-! ## Canonical texts -/

/-- Whether a text is the display of the value that is read from it for a field. -/
def Schema.IsCanonical (schema : Schema) (field : Field) (text : String) : Prop :=
  ∃ v, Value.ofText (schema.typeOf field) text = .ok v ∧ v.display = text

/-- For a field of strings every text is canonical. -/
theorem Schema.isCanonical_of_string {schema : Schema} {field : Field}
    (h : schema.typeOf field = .string) (text : String) : schema.IsCanonical field text :=
  ⟨.string text, by rw [h]; rfl, rfl⟩

/-- For a fact, a comparison with a canonical text is one with the value read from it. -/
theorem FieldPredicate.accepts_equal {doc : Document} {schema : Schema}
    (hvalid : doc.validate = .ok schema) {record : Record} (hrecord : schema.IsFact record)
    {field : Field} {text : String} {v : Value}
    (hread : Value.ofText (schema.typeOf field) text = .ok v) (hdisplay : v.display = text) :
    (⟨field, .compare .equal v⟩ : FieldPredicate).accepts record.contents =
      (⟨field, .text text⟩ : FieldPredicate).accepts record.contents := by
  unfold FieldPredicate.accepts
  cases hvalue : valueAt record.contents field with
  | none => rfl
  | some w =>
    have hw := Document.isRead_of_valueAt hvalid hrecord hvalue
    show (w.compare v == .eq) = (w.display == text)
    rw [Bool.eq_iff_iff, beq_iff_eq, beq_iff_eq, ← hdisplay]
    exact Value.compare_eq_iff hw ⟨text, hread⟩

end FactCube
