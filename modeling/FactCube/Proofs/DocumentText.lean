import FactCube.Model.Notation
import FactCube.Proofs.JsonData

/-!
# Documents that read back

A document is written with its defaults filled in and with its absent options left out; it is read
with defaults for the fields left out, whether its records are written as objects or as arrays. So
its text is another than the one it was read from, but gives the same document: the data in the text
hold every field that was written, tables keep their entries in order with repeated keys, and a
literal keeps its kind. Texts, truth values and integers are restored by their text; a float is
restored where the scaling of its digits hits it again, which is assumed of the floats of the
document and of no others.

Results:
* `Document.ofDatum_datum`: a document is given back by its data.
* `Document.ofJson_text_of_isRestored`: a document whose literals are restored is read back from its
  text, whether it was read before or made otherwise.
* `Document.isPlain_of_ofJson`: the numbers in a document that was read are integers of 64 bits and
  finite floats.
* `Document.ofJson_text`: a document that was read is read back from its text, which is then the
  text of what is read.
-/

namespace FactCube

deriving instance DecidableEq for AttributeSpec
deriving instance DecidableEq for DimensionSpec
deriving instance DecidableEq for ViewSpec
deriving instance DecidableEq for Document

namespace Document

open Json (Reads ReadsFields IsRestored IsPlain Holds)

/-! ## Data of a document -/

/-- A field that is left out if its value is absent. -/
def field? (name : String) (value : Option Datum) : List (String × Datum) :=
  match value with
  | some value => [(name, value)]
  | none => []

/-- The data of a dataset. -/
def datasetDatum (d : Dataset) : Datum :=
  .record
    [("name", .text d.name), ("label", .text d.label), ("description", .text d.description),
     ("currency", .text d.currency)]

/-- The data of an attribute. -/
def attributeDatum (a : AttributeSpec) : Datum :=
  .record (("datatype", .text a.datatype) :: field? "default_value" (a.default?.map .literal))

/-- The data of the attributes of a dimension, left out if there are none. -/
def attributesDatum (attributes : List (String × AttributeSpec)) : Option Datum :=
  if attributes.isEmpty then none
  else some (.keyed (attributes.map fun (name, a) => (name, attributeDatum a)))

/-- The data of a dimension. -/
def dimensionDatum (d : DimensionSpec) : Datum :=
  .record
    ([("type", .text d.kind), ("label", .text d.label), ("description", .text d.description)] ++
     field? "datatype" (d.datatype?.map .text) ++
     field? "attributes" (attributesDatum d.attributes) ++
     field? "default_value" (d.default?.map .literal) ++
     [("facet", .flag d.facet), ("key", .flag d.key)] ++
     field? "taxonomy" (d.taxonomy?.map .text) ++
     field? "level" (d.level?.map .literal) ++
     field? "change_date" (d.changeDate?.map .text))

/-- The data of a view. -/
def viewDatum (v : ViewSpec) : Datum :=
  .record
    [("entity", .text v.entity), ("label", .text v.label), ("name", .text v.name),
     ("dimension", .text v.dimension), ("breakdown", .text v.breakdown),
     ("filters", .keyed (v.filters.map fun (key, l) => (key, .literal l)))]

/-- The data of a document. -/
def datum (doc : Document) : Datum :=
  .record
    [("dataset", datasetDatum doc.dataset),
     ("mapping", .keyed (doc.mapping.map fun (path, column) =>
       (path, .record [("column", .text column)]))),
     ("dimensions", .keyed (doc.dimensions.map fun (name, d) => (name, dimensionDatum d))),
     ("views", .listed (doc.views.map viewDatum))]

/-! ## The document in its data -/

@[simp]
theorem field_nil (name : String) : (Datum.record []).field name = .absent := rfl

@[simp]
theorem field_cons (name : String) (f : String × Datum) (fields : List (String × Datum)) :
    (Datum.record (f :: fields)).field name =
      if f.1 == name then f.2 else (Datum.record fields).field name := by
  by_cases h : f.1 == name <;> simp [Datum.field, h]

@[simp]
theorem field_append (name other : String) (value : Option Datum)
    (fields : List (String × Datum)) :
    (Datum.record (field? other value ++ fields)).field name =
      if other == name then value.getD ((Datum.record fields).field name)
      else (Datum.record fields).field name := by
  cases value with
  | none => simp [field?]
  | some value => exact field_cons name (other, value) fields

/-- The field that is left out at the end of a record. -/
@[simp]
theorem field_last (name other : String) (value : Option Datum) :
    (Datum.record (field? other value)).field name =
      if other == name then value.getD .absent else .absent := by
  rw [← List.append_nil (field? other value), field_append, field_nil]

@[simp]
theorem textOrEmpty_text (s : String) : (Datum.text s).textOrEmpty = s := rfl

@[simp]
theorem isSet_flag (b : Bool) : (Datum.flag b).isSet = b := rfl

@[simp]
theorem literal?_literal (l : Literal) : (Datum.literal l).literal? = some l := rfl

@[simp]
theorem entries_keyed (entries : List (String × Datum)) : (Datum.keyed entries).entries = entries :=
  rfl

@[simp]
theorem items_listed (items : List Datum) : (Datum.listed items).items = items := rfl

@[simp]
theorem text?_getD (o : Option String) : ((o.map Datum.text).getD .absent).text? = o := by
  cases o <;> rfl

@[simp]
theorem literal?_getD (o : Option Literal) :
    ((o.map Datum.literal).getD .absent).literal? = o := by
  cases o <;> rfl

@[simp]
theorem entries_attributesDatum (attributes : List (String × AttributeSpec)) :
    ((attributesDatum attributes).getD .absent).entries =
      attributes.map fun (name, a) => (name, attributeDatum a) := by
  cases attributes <;> rfl

@[simp]
theorem datasetOf_datasetDatum (d : Dataset) : datasetOf (datasetDatum d) = d := by
  simp [datasetOf, datasetDatum]

@[simp]
theorem attributeOf_attributeDatum (a : AttributeSpec) : attributeOf (attributeDatum a) = a := by
  simp [attributeOf, attributeDatum]

@[simp]
theorem dimensionOf_dimensionDatum (d : DimensionSpec) : dimensionOf (dimensionDatum d) = d := by
  simp [dimensionOf, dimensionDatum, List.append_assoc, Function.comp_def]

@[simp]
theorem viewOf_viewDatum (v : ViewSpec) : viewOf (viewDatum v) = v := by
  simp [viewOf, viewDatum, Function.comp_def]

/-- A document is given back by its data. -/
theorem ofDatum_datum (doc : Document) : ofDatum doc.datum = doc := by
  simp [ofDatum, datum, Function.comp_def]

/-! ## Literals -/

/-- The literals of an attribute: its default. -/
def attributeLiterals (a : AttributeSpec) : List Literal := a.default?.toList

/-- The literals of a dimension: the defaults of its attributes, its own default and its level. -/
def dimensionLiterals (d : DimensionSpec) : List Literal :=
  d.attributes.flatMap (fun a => attributeLiterals a.2) ++ d.default?.toList ++ d.level?.toList

/-- The literals of a document: those of its dimensions and of the filters of its views. -/
def literals (doc : Document) : List Literal :=
  doc.dimensions.flatMap (fun d => dimensionLiterals d.2) ++
    doc.views.flatMap fun v => v.filters.map Prod.snd

/-! ## Parts that read back -/

theorem rel_map {α : Type} {n : Nat} {shape : Shape} {toJson : α → Json} {toDatum : α → Datum}
    {value : Option α} (h : ∀ a ∈ value, Reads n shape (toJson a) (toDatum a)) :
    Option.Rel (Reads n shape) (value.map toJson) (value.map toDatum) := by
  cases value with
  | none => exact .none
  | some a => exact .some (h a rfl)

/-- An optional field is written if it is there and left out if it is not. -/
theorem readsFields_member? {n : Nat} {name : String} {presence : Presence} {shape : Shape}
    (hpresence : presence ≠ .required) {value : Option Json} {data : Option Datum}
    (h : Option.Rel (Reads n shape) value data) {fields : List (String × Presence × Shape)}
    {members : List (String × Json)} {written : List (String × Datum)}
    (hrest : ReadsFields n fields members written) :
    ReadsFields n ((name, presence, shape) :: fields) (member? name value ++ members)
      (field? name data ++ written) := by
  cases h with
  | none => exact .omitted hpresence hrest
  | some h => exact .cons h hrest

/-- So is the last field of a record. -/
theorem readsFields_last {n : Nat} {name : String} {presence : Presence} {shape : Shape}
    (hpresence : presence ≠ .required) {value : Option Json} {data : Option Datum}
    (h : Option.Rel (Reads n shape) value data) :
    ReadsFields n [(name, presence, shape)] (member? name value) (field? name data) := by
  rw [← List.append_nil (member? name value), ← List.append_nil (field? name data)]
  exact readsFields_member? hpresence h .nil

theorem rel_texts (n : Nat) (value : Option String) :
    Option.Rel (Reads n .text) (value.map .string) (value.map .text) :=
  rel_map fun s _ => Json.reads_text n s

theorem rel_literals (n : Nat) {value : Option Literal} (h : ∀ l ∈ value.toList, IsRestored l) :
    Option.Rel (Reads n .literal) (value.map literalJson) (value.map .literal) :=
  rel_map fun l hl => Json.reads_literal (h l (Option.mem_toList.2 hl)) n

theorem reads_dataset (d : Dataset) : Reads 1 datasetShape (datasetJson d) (datasetDatum d) :=
  Json.reads_record (by decide)
    (.cons (Json.reads_text 0 _) (.cons (Json.reads_text 0 _) (.cons (Json.reads_text 0 _)
      (.cons (Json.reads_text 0 _) .nil))))

theorem reads_column (column : String) :
    Reads 1 mappingShape (.object [("column", .string column)])
      (.record [("column", .text column)]) :=
  Json.reads_record (by decide) (.cons (Json.reads_text 0 _) .nil)

theorem reads_attribute {a : AttributeSpec} (h : ∀ l ∈ attributeLiterals a, IsRestored l) :
    Reads 1 attributeShape (attributeJson a) (attributeDatum a) := by
  refine Json.reads_record (by decide) (.cons (Json.reads_text 0 _) ?_)
  exact readsFields_last (by decide) (rel_literals 0 h)

theorem rel_attributes {attributes : List (String × AttributeSpec)}
    (h : ∀ l ∈ attributes.flatMap fun a => attributeLiterals a.2, IsRestored l) :
    Option.Rel (Reads 2 (.keyed attributeShape)) (attributesJson attributes)
      (attributesDatum attributes) := by
  rw [attributesJson, attributesDatum]
  split
  · exact .none
  · exact .some (Json.reads_keyed fun a ha =>
      reads_attribute fun l hl => h l (List.mem_flatMap.2 ⟨a, ha, hl⟩))

theorem reads_dimension {d : DimensionSpec} (h : ∀ l ∈ dimensionLiterals d, IsRestored l) :
    Reads 3 dimensionShape (dimensionJson d) (dimensionDatum d) := by
  rw [dimensionLiterals, List.forall_mem_append, List.forall_mem_append] at h
  obtain ⟨⟨hattributes, hdefault⟩, hlevel⟩ := h
  rw [dimensionJson, dimensionDatum]
  simp only [List.append_assoc, List.cons_append, List.nil_append]
  refine Json.reads_record (by decide) ?_
  refine .cons (Json.reads_text 2 _) (.cons (Json.reads_text 2 _) (.cons (Json.reads_text 2 _) ?_))
  refine readsFields_member? (by decide) (rel_texts 2 _) ?_
  refine readsFields_member? (by decide) (rel_attributes hattributes) ?_
  refine readsFields_member? (by decide) (rel_literals 2 hdefault) ?_
  refine .cons (Json.reads_flag 2 _) (.cons (Json.reads_flag 2 _) ?_)
  refine readsFields_member? (by decide) (rel_texts 2 _) ?_
  refine readsFields_member? (by decide) (rel_literals 2 hlevel) ?_
  exact readsFields_last (by decide) (rel_texts 2 _)

theorem reads_view {v : ViewSpec} (h : ∀ l ∈ v.filters.map Prod.snd, IsRestored l) :
    Reads 2 viewShape (viewJson v) (viewDatum v) := by
  have hfilters : Reads 1 (.keyed .literal)
      (.object (v.filters.map fun (key, l) => (key, literalJson l)))
      (.keyed (v.filters.map fun (key, l) => (key, .literal l))) :=
    Json.reads_keyed fun e he => Json.reads_literal (h e.2 (List.mem_map_of_mem he)) 0
  exact Json.reads_record (by decide)
    (.cons (Json.reads_text 1 _) (.cons (Json.reads_text 1 _) (.cons (Json.reads_text 1 _)
      (.cons (Json.reads_text 1 _) (.cons (Json.reads_text 1 _) (.cons hfilters .nil))))))

/-- A document whose literals are restored gives its data. -/
theorem reads_document {doc : Document} (h : ∀ l ∈ doc.literals, IsRestored l) :
    Reads 5 shape doc.toJson doc.datum := by
  rw [literals, List.forall_mem_append] at h
  have hmapping : Reads 2 (.keyed mappingShape)
      (.object (doc.mapping.map fun (path, column) => (path, .object [("column", .string column)])))
      (.keyed (doc.mapping.map fun (path, column) => (path, .record [("column", .text column)]))) :=
    @Json.reads_keyed 1 mappingShape String (fun column => .object [("column", .string column)])
      (fun column => .record [("column", .text column)]) doc.mapping fun e _ => reads_column e.2
  have hdimensions : Reads 4 (.keyed dimensionShape)
      (.object (doc.dimensions.map fun (name, d) => (name, dimensionJson d)))
      (.keyed (doc.dimensions.map fun (name, d) => (name, dimensionDatum d))) :=
    Json.reads_keyed fun e he =>
      reads_dimension fun l hl => h.1 l (List.mem_flatMap.2 ⟨e, he, hl⟩)
  have hviews : Reads 3 (.listed viewShape) (.array (doc.views.map viewJson))
      (.listed (doc.views.map viewDatum)) :=
    Json.reads_listed fun v hv => reads_view fun l hl => h.2 l (List.mem_flatMap.2 ⟨v, hv, hl⟩)
  exact Json.reads_record (by decide)
    (.cons ((reads_dataset doc.dataset).mono (by decide)) (.cons (hmapping.mono (by decide))
      (.cons hdimensions (.cons (hviews.mono (by decide)) .nil))))

/-- Every document, however it came about, is read back from its text if its literals are. -/
theorem ofJson_text_of_isRestored {doc : Document} (h : ∀ l ∈ doc.literals, IsRestored l) :
    ofJson doc.text = .ok doc := by
  rw [ofJson, ofJsonSymbols, text, (reads_document h).readShape (by decide)]
  exact congrArg Except.ok (ofDatum_datum doc)

/-! ## Documents that were read -/

theorem holds_of_field {l : Literal} {name : String} {d : Datum} (h : Holds l (d.field name)) :
    Holds l d := by
  cases d with
  | record fields =>
    rw [Datum.field] at h
    split at h
    · rename_i f hf
      exact .field (List.mem_of_find?_eq_some hf) h
    · cases h
  | _ => cases h

theorem holds_of_entry {l : Literal} {d : Datum} {e : String × Datum} (he : e ∈ d.entries)
    (h : Holds l e.2) : Holds l d := by
  cases d with
  | keyed entries => exact .entry he h
  | _ => cases he

theorem holds_of_item {l : Literal} {d i : Datum} (hi : i ∈ d.items) (h : Holds l i) :
    Holds l d := by
  cases d with
  | listed items => exact .item hi h
  | _ => cases hi

theorem holds_of_literal? {l : Literal} {d : Datum} (h : l ∈ d.literal?.toList) : Holds l d := by
  cases d with
  | literal l' =>
    rw [List.mem_singleton.1 h]
    exact .literal
  | _ => cases h

theorem holds_of_attribute {l : Literal} {d : Datum} (h : l ∈ attributeLiterals (attributeOf d)) :
    Holds l d :=
  holds_of_field (holds_of_literal? h)

theorem holds_of_dimension {l : Literal} {d : Datum} (h : l ∈ dimensionLiterals (dimensionOf d)) :
    Holds l d := by
  rw [dimensionLiterals, List.mem_append, List.mem_append] at h
  rcases h with (h | h) | h
  · obtain ⟨a, ha, hl⟩ := List.mem_flatMap.1 h
    obtain ⟨e, he, rfl⟩ := List.mem_map.1 ha
    exact holds_of_field (holds_of_entry he (holds_of_attribute hl))
  · exact holds_of_field (holds_of_literal? h)
  · exact holds_of_field (holds_of_literal? h)

/-- A filter that is no literal has the empty text. -/
theorem holds_of_view {l : Literal} {d : Datum} (h : l ∈ (viewOf d).filters.map Prod.snd) :
    l = .text "" ∨ Holds l d := by
  obtain ⟨f, hf, rfl⟩ := List.mem_map.1 h
  obtain ⟨e, he, rfl⟩ := List.mem_map.1 hf
  cases hl : e.2.literal? with
  | none => exact .inl (by simp only [hl, Option.getD_none])
  | some l =>
    refine .inr ?_
    simp only [hl, Option.getD_some]
    have hmem : l ∈ e.2.literal?.toList := by
      rw [hl]
      exact List.mem_cons_self
    exact holds_of_field (holds_of_entry he (holds_of_literal? hmem))

/-- The literals of a document stand in the data it was made of. -/
theorem holds_of_mem_literals {l : Literal} {d : Datum} (h : l ∈ (ofDatum d).literals) :
    l = .text "" ∨ Holds l d := by
  rw [literals, List.mem_append] at h
  rcases h with h | h
  · obtain ⟨dimension, hdimension, hl⟩ := List.mem_flatMap.1 h
    obtain ⟨e, he, rfl⟩ := List.mem_map.1 hdimension
    exact .inr (holds_of_field (holds_of_entry he (holds_of_dimension hl)))
  · obtain ⟨v, hv, hl⟩ := List.mem_flatMap.1 h
    obtain ⟨i, hi, rfl⟩ := List.mem_map.1 hv
    rcases holds_of_view hl with rfl | hl
    · exact .inl rfl
    · exact .inr (holds_of_field (holds_of_item hi hl))

/-- The literals of a document that was read are integers of 64 bits, finite floats or no
numbers. -/
theorem isPlain_of_ofJson {s : String} {doc : Document} (h : ofJson s = .ok doc) :
    ∀ l ∈ doc.literals, IsPlain l := by
  intro l hl
  obtain ⟨d, hread, rfl⟩ := Outcome.map_eq_ok_iff.1 h
  rw [Json.readShape] at hread
  obtain ⟨value, hvalue, hclose⟩ := Outcome.bind_eq_ok_iff.1 hread
  split at hclose
  · cases hclose
    rcases holds_of_mem_literals hl with rfl | hl
    · trivial
    · exact Json.isPlain_of_holds hl (Json.isRead_of_datum hvalue)
  · cases hclose

/-- A document that was read is read back from its text, and its text is the text of what is read
from it. Of the floats in it, which are finite, it is assumed that their texts stand for them. -/
theorem ofJson_text {s : String} {doc : Document} (h : ofJson s = .ok doc)
    (hfloats : ∀ x, Literal.float x ∈ doc.literals → Binary64.isFinite x = true →
      IsRestored (.float x)) :
    ofJson doc.text = .ok doc ∧ (ofJson doc.text).map text = .ok doc.text := by
  have hrestored : ∀ l ∈ doc.literals, IsRestored l := by
    intro l hl
    have hplain := isPlain_of_ofJson h l hl
    cases l with
    | text s => exact Json.isRestored_text s
    | integer n => exact Json.isRestored_integer hplain.1 hplain.2
    | float x => exact hfloats x hl hplain
    | boolean b => exact Json.isRestored_boolean b
  have hread := ofJson_text_of_isRestored hrestored
  exact ⟨hread, congrArg (Except.map text) hread⟩

end Document

/-! ## A sample -/

namespace Sample

/-- A text with records written as arrays, a repeated key, a negative zero and an integer beyond 64
bits. -/
def shortText : String :=
  "\x7b\"dataset\":[],\"mapping\":\x7b\"a\":[\"x\"]\x7d," ++
    "\"views\":[[\"d\",\"\",\"v\",\"d\",\"a\"," ++
      "\x7b\"k\":-0,\"k\":1.5,\"l\":9223372036854775808\x7d]]\x7d"

/-- The document the text stands for. -/
def shortDocument : Document :=
  { dataset := { name := "", label := "", description := "", currency := "" }
    mapping := [("a", "x")]
    dimensions := []
    views :=
      [{ entity := "d", label := "", name := "v", dimension := "d", breakdown := "a"
         filters :=
           [("k", .float (-0.0)), ("k", .float 1.5), ("l", .float 9223372036854775808)] }] }

theorem ofJson_shortText : Document.ofJson shortText = .ok shortDocument := by decide +kernel

theorem isRestored_shortDocument : ∀ x, Literal.float x ∈ shortDocument.literals →
    Binary64.isFinite x = true → Json.IsRestored (.float x) := by
  have hall : ∀ l ∈ shortDocument.literals, Json.IsRestored l := by decide +kernel
  exact fun x hx _ => hall _ hx

end Sample

theorem Document.ofJson_text_sample :
    Document.ofJson Sample.shortText = .ok Sample.shortDocument ∧
      Document.ofJson Sample.shortDocument.text = .ok Sample.shortDocument ∧
      (Document.ofJson Sample.shortDocument.text).map Document.text =
        .ok Sample.shortDocument.text :=
  ⟨Sample.ofJson_shortText,
    Document.ofJson_text Sample.ofJson_shortText Sample.isRestored_shortDocument⟩

end FactCube
