import FactCube.Proofs.Declarations
import FactCube.Proofs.Facts

/-!
# What a row is mapped to

Specification: each declared slot looks at the one column mapped to its path. A text there has to be
one of the datatype; without a text the slot takes its default, and a string attribute of a compound
dimension stays blank if there is none. A row is mapped to the fact that holds these values, each in
its declared place. If some slot has no value, the row is refused with the fault of the first such
slot in the order of declaration.

Results:
* `slotValue_eq_iff`: reading a slot follows the rules for slots.
* `mapRow_spec`: mapping a row of a validated document follows the specification.
-/

namespace FactCube

open Validation (Slot slotsOf)

/-! ## Specification -/

/-- Whether a row has no text in a column. -/
def Row.Lacks (row : Row) (column : String) : Prop :=
  ∀ text, row.get? column = some text → text = ""

/-- What a slot gets from its column: a value, or the fault of the row. -/
inductive Validation.Slot.Yields (row : Row) (column : String) (slot : Slot) :
    Except RowFault Value → Prop
  | cell {text : String} {value : Value} :
    row.get? column = some text → text ≠ "" → Value.ofText slot.datatype text = .ok value →
    Yields row column slot (.ok value)
  | malformed {text : String} {cause : ValueFault} :
    row.get? column = some text → text ≠ "" → Value.ofText slot.datatype text = .error cause →
    Yields row column slot (.error (.notCoercible slot.path slot.datatype cause))
  | default {value : Value} :
    row.Lacks column → slot.default? = some value → Yields row column slot (.ok value)
  | blank :
    row.Lacks column → slot.default? = none → slot.optional = true →
    Yields row column slot (.ok (.string ""))
  | missing :
    row.Lacks column → slot.default? = none → slot.optional = false →
    Yields row column slot (.error (.noValue slot.path column))

/-- Whether an entry has the shape of a declared dimension and a value for each of its slots, in
order. -/
structure DimensionSpec.Holds (R : Slot → Value → Prop) (index : Nat) (name : String)
    (spec : DimensionSpec) (entry : Entry) : Prop where
  shape : entry.isCompound = spec.isCompound
  values : List.Forall₂ R (spec.slots index name) entry.values

namespace Document

/-- What a declared slot gets from the one column mapped to its path. -/
def Yields (doc : Document) (row : Row) (slot : Slot) (outcome : Except RowFault Value) : Prop :=
  ∃ column, Validation.columnsOf doc.mapping slot.path = [column] ∧
    slot.Yields row column outcome

/-- What a row of a document is mapped to: the fact with the values of all slots, or the fault of
the first slot that has none. -/
inductive Maps (doc : Document) (row : Row) : Except RowFault Record → Prop
  | fact {record : Record} :
    List.Forall₂
      (fun (declared : (String × DimensionSpec) × Nat) entry =>
        declared.1.2.Holds (fun slot value => doc.Yields row slot (.ok value)) declared.2
          declared.1.1 entry)
      doc.dimensions.zipIdx record.contents →
    Maps doc row (.ok record)
  | fault {before after : List Slot} {slot : Slot} {fault : RowFault} :
    doc.slots = before ++ slot :: after →
    (∀ earlier ∈ before, ∃ value, doc.Yields row earlier (.ok value)) →
    doc.Yields row slot (.error fault) →
    Maps doc row (.error fault)

end Document

/-! ## Reading slots -/

theorem cellText?_eq_none_iff {row : Row} {column : String} :
    cellText? row column = none ↔ row.Lacks column := by
  rw [cellText?, Row.Lacks]
  cases row.get? column with
  | none => simp
  | some text => simp

theorem cellText?_eq_some_iff {row : Row} {column text : String} :
    cellText? row column = some text ↔ row.get? column = some text ∧ text ≠ "" := by
  rw [cellText?]
  cases row.get? column with
  | none => simp
  | some found =>
    simp only [Option.ite_none_left_eq_some, String.isEmpty_iff, Option.some.injEq, ne_eq]
    constructor
    · rintro ⟨hfound, rfl⟩
      exact ⟨rfl, hfound⟩
    · rintro ⟨rfl, hfound⟩
      exact ⟨hfound, rfl⟩

theorem yields_slotValue (row : Row) (field : MappedField) :
    field.slot.Yields row field.column (slotValue row field) := by
  rw [slotValue]
  cases hcell : cellText? row field.column with
  | some text =>
    obtain ⟨hget, htext⟩ := cellText?_eq_some_iff.1 hcell
    cases hvalue : Value.ofText field.datatype text with
    | ok value =>
      simp only [hvalue]
      exact .cell hget htext hvalue
    | error cause =>
      simp only [hvalue]
      exact .malformed hget htext hvalue
  | none =>
    have hlacks := cellText?_eq_none_iff.1 hcell
    cases hdefault : field.default? with
    | some value => exact .default hlacks hdefault
    | none =>
      cases hoptional : field.optional with
      | true => exact .blank hlacks hdefault hoptional
      | false => exact .missing hlacks hdefault hoptional

/-- Reading a slot follows the rules for slots. -/
theorem slotValue_eq_iff {row : Row} {field : MappedField} {outcome : Except RowFault Value} :
    slotValue row field = outcome ↔ field.slot.Yields row field.column outcome := by
  constructor
  · rintro rfl
    exact yields_slotValue row field
  · intro h
    rw [slotValue]
    cases h with
    | cell hget htext hvalue =>
      rw [cellText?_eq_some_iff.2 ⟨hget, htext⟩]
      simp only [show Value.ofText field.datatype _ = _ from hvalue]
    | malformed hget htext hvalue =>
      rw [cellText?_eq_some_iff.2 ⟨hget, htext⟩]
      simp only [show Value.ofText field.datatype _ = _ from hvalue]
      rfl
    | default hlacks hdefault =>
      rw [cellText?_eq_none_iff.2 hlacks]
      simp only [show field.default? = _ from hdefault]
    | blank hlacks hdefault hoptional =>
      rw [cellText?_eq_none_iff.2 hlacks]
      simp only [show field.default? = _ from hdefault, show field.optional = _ from hoptional,
        if_true]
    | missing hlacks hdefault hoptional =>
      rw [cellText?_eq_none_iff.2 hlacks]
      simp only [show field.default? = _ from hdefault, show field.optional = _ from hoptional,
        Bool.false_eq_true, if_false]
      rfl

/-! ## Mapping rows -/

/-- Entries that hold values for the dimensions of a schema hold them as declared. -/
theorem forall₂_of_holdsFrom {R : Slot → Value → Prop}
    {entries : List (String × DimensionSpec)} {dimensions : List Dimension} {filled : List Entry}
    (hstands : List.Forall₂ Validation.Stands entries dimensions) {start : Nat}
    (h : HoldsFrom R start dimensions filled) :
    List.Forall₂
      (fun (declared : (String × DimensionSpec) × Nat) entry =>
        declared.1.2.Holds R declared.2 declared.1.1 entry)
      (entries.zipIdx start) filled := by
  induction hstands generalizing start filled with
  | nil =>
    cases h
    exact .nil
  | cons hentry _ ih =>
    cases h with
    | cons hholds hrest =>
      refine .cons ⟨hholds.shape.trans hentry.shape, ?_⟩ (ih hrest)
      rw [← hentry.slots]
      exact hholds.values

namespace Document

variable {doc : Document} {schema : Schema}

/-- A field of a validated schema is read as its slot asks. -/
theorem yields_iff (h : doc.validate = .ok schema) {field : MappedField}
    (hfield : field ∈ schema.fields) {row : Row} {outcome : Except RowFault Value} :
    doc.Yields row field.slot outcome ↔ slotValue row field = outcome := by
  have hcolumns := Document.columns_of_validate h hfield
  rw [slotValue_eq_iff]
  constructor
  · rintro ⟨column, hcolumn, hyields⟩
    rw [show Validation.columnsOf doc.mapping field.path = [column] from hcolumn,
      List.cons.injEq] at hcolumns
    rw [← hcolumns.1]
    exact hyields
  · exact fun hyields => ⟨field.column, hcolumns, hyields⟩

/-- The outcome of mapping a row is as specified. -/
theorem maps_mapRow (h : doc.validate = .ok schema) (row : Row) :
    doc.Maps row (mapRow schema row) := by
  cases hrow : mapRow schema row with
  | ok record =>
    refine .fact (forall₂_of_holdsFrom (Document.forall₂_of_validate h) ?_)
    exact holds_of_mapRow (Document.wellFormed_of_validate h) hrow fun field hfield value hvalue =>
      (yields_iff h hfield).2 hvalue
  | error fault =>
    rw [mapRow_eq, Outcome.map_eq_error_iff] at hrow
    obtain ⟨before, field, after, hfields, hbefore, hfield⟩ := Outcome.exists_of_mapM_eq_error hrow
    have hslots := Document.slots_of_validate h
    rw [hfields, List.map_append, List.map_cons] at hslots
    refine .fault hslots.symm ?_ ((yields_iff h (by simp [hfields])).2 hfield)
    intro earlier hearlier
    obtain ⟨g, hg, rfl⟩ := List.mem_map.1 hearlier
    obtain ⟨value, hvalue⟩ := hbefore g hg
    exact ⟨value, (yields_iff h (by simp [hfields, hg])).2 hvalue⟩

/-- A row is mapped to a fact iff every declared slot has a value. -/
theorem exists_mapRow_eq_ok_iff (h : doc.validate = .ok schema) (row : Row) :
    (∃ record, mapRow schema row = .ok record) ↔
      ∀ slot ∈ doc.slots, ∃ value, doc.Yields row slot (.ok value) := by
  have hmapped : (∃ record, mapRow schema row = .ok record) ↔
      ∃ values, schema.fields.mapM (slotValue row) = .ok values := by
    simp only [mapRow_eq, Outcome.map_eq_ok_iff]
    constructor
    · rintro ⟨_, values, hvalues, -⟩
      exact ⟨values, hvalues⟩
    · rintro ⟨values, hvalues⟩
      exact ⟨_, values, hvalues, rfl⟩
  rw [hmapped, Outcome.exists_mapM_eq_ok_iff, ← Document.slots_of_validate h]
  simp only [List.forall_mem_map]
  exact forall₂_congr fun field hfield => exists_congr fun value => (yields_iff h hfield).symm

/-- Mapping a row of a validated document follows the specification. -/
theorem mapRow_spec (h : doc.validate = .ok schema) (row : Row) :
    doc.Maps row (mapRow schema row) ∧
      ((∃ record, mapRow schema row = .ok record) ↔
        ∀ slot ∈ doc.slots, ∃ value, doc.Yields row slot (.ok value)) :=
  ⟨maps_mapRow h row, exists_mapRow_eq_ok_iff h row⟩

end Document

namespace Sample

/-- A document with a classifier, one attribute of which has a default, and a year with another. Its
mapping is not in the order of declaration. -/
def grantsDocument : Document where
  dataset := ⟨"grants", "", "", "GBP"⟩
  mapping :=
    [("amount", "amount"), ("purpose.note", "note"), ("year", "year"), ("purpose.name", "purpose"),
     ("purpose.grade", "grade")]
  dimensions :=
    [("purpose", ⟨"classifier", "", "", none,
      [("name", ⟨"string", none⟩), ("grade", ⟨"integer", some (.integer 1)⟩),
       ("note", ⟨"string", none⟩)], none, false, false, some "cofog", none, none⟩),
     ("year", ⟨"value", "", "", some "integer", [], some (.integer 2009), false, false, none, none,
      none⟩),
     ("amount", ⟨"measure", "", "", some "float", [], none, false, false, none, none, none⟩)]
  views := []

/-- The schema of the document. -/
def grantsSchema : Schema where
  dataset := ⟨"grants", "", "", "GBP"⟩
  dimensions :=
    [⟨"purpose", .classifier, "", "", false, false, some "cofog", some 1, none,
      .compound [⟨"name", .string, none⟩, ⟨"grade", .integer, some (.integer 1)⟩,
        ⟨"note", .string, none⟩]⟩,
     ⟨"year", .value, "", "", false, false, none, none, none,
      .scalar .integer (some (.integer 2009))⟩,
     ⟨"amount", .measure, "", "", false, false, none, none, none, .scalar .float none⟩]
  fields :=
    [⟨"purpose.name", "purpose", .component 0 0, .string, none, true⟩,
     ⟨"purpose.grade", "grade", .component 0 1, .integer, some (.integer 1), false⟩,
     ⟨"purpose.note", "note", .component 0 2, .string, none, true⟩,
     ⟨"year", "year", .scalar 1, .integer, some (.integer 2009), false⟩,
     ⟨"amount", "amount", .scalar 2, .float, none, false⟩]
  taxonomies := [⟨"cofog", [⟨1, 0⟩]⟩]
  views := []

theorem validate_grants : grantsDocument.validate = .ok grantsSchema := by
  with_unfolding_all rfl

/-- A row without a grade, a note and a year. -/
def grantRow : Row := .ofList [("purpose", "Roads"), ("amount", "5")]

/-- The contents of the row. -/
def grantContents : Contents :=
  [.compound [.string "Roads", .integer 1, .string ""], .scalar (.integer 2009),
    .scalar (.float 5)]

/-- The fact of the row. -/
def grantFact : Record := .ofContents grantsSchema grantContents

theorem mapRow_grant : mapRow grantsSchema grantRow = .ok grantFact := by
  have hpurpose : cellText? grantRow "purpose" = some "Roads" := by
    simp [cellText?, grantRow, Row.ofList, Row.get?_insert]
  have hamount : cellText? grantRow "amount" = some "5" := by
    simp [cellText?, grantRow, Row.ofList, Row.get?_insert]
  have hblank : ∀ column ∈ ["grade", "note", "year"], cellText? grantRow column = none := by
    simp [cellText?, grantRow, Row.ofList, Row.get?_insert, Row.get?_empty]
  rw [List.forall_mem_cons, List.forall_mem_cons, List.forall_mem_singleton] at hblank
  have hfill : fillSlots grantRow (emptyContents grantsSchema) grantsSchema.fields =
      .ok grantContents := by
    simp only [grantsSchema, fillSlots, slotValue, hpurpose, hamount, hblank]
    rfl
  rw [mapRow, hfill]
  rfl

/-- A row with a year that is no number and without an amount. -/
def undatedRow : Row := .ofList [("purpose", "Roads"), ("year", "last")]

end Sample

namespace Document

/-- A row that takes two defaults and leaves a note blank, and a row with two slots at fault. -/
theorem mapRow_spec_sample :
    Sample.grantsDocument.validate = .ok Sample.grantsSchema ∧
      mapRow Sample.grantsSchema Sample.grantRow = .ok Sample.grantFact ∧
      ∀ row ∈ [Sample.grantRow, Sample.undatedRow],
        Sample.grantsDocument.Maps row (mapRow Sample.grantsSchema row) ∧
          ((∃ record, mapRow Sample.grantsSchema row = .ok record) ↔
            ∀ slot ∈ Sample.grantsDocument.slots,
              ∃ value, Sample.grantsDocument.Yields row slot (.ok value)) :=
  ⟨Sample.validate_grants, Sample.mapRow_grant,
    fun row _ => mapRow_spec Sample.validate_grants row⟩

end Document

end FactCube
