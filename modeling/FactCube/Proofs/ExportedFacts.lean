import FactCube.Proofs.GroupBy
import FactCube.Proofs.JsonText
import FactCube.Proofs.Paths
import FactCube.Proofs.RowMapping

/-!
# Exported facts

A fact is exported as an object with its id and a member for every dimension. Members are put in one
after the other, and a later one takes the place of an earlier one of the same name: the id comes
first, so a dimension named `id` takes its place, and of attributes that share a name the last one
stays, while a path means the first. The taxonomy of a classifier comes last, and is left out where
an attribute has that name. Where no two of these names meet, nothing is lost, and the id can be
read off the line.

Results:
* `Json.member?_sorted`: which of several members of a name an object has.
* `Json.node_member?_eq`: objects with the same text have the same members.
* `Record.isExported_toJson`: what a fact is exported as.
* `Document.exports_of_validate`: the same for a validated schema, and when lines tell facts apart.
* `not_forall_exports`: a fact without its id and one without an attribute's value.
-/

namespace FactCube

namespace Json

/-! ## Members by name -/

theorem insertSorted_eq (name : String) (value : Json) (members : List (String × Json)) :
    insertSorted name value members = insertTotal name value members := by
  induction members with
  | nil => rfl
  | cons first members ih =>
    obtain ⟨other, old⟩ := first
    cases hcompare : compare name other <;>
      simp only [insertSorted, insertTotal, hcompare, ih]

/-- Sorted members ascend by name. -/
theorem ascending_sortMembers (members : List (String × Json)) :
    NamedAscending (sortMembers members) := by
  have heq : sortMembers members = totalsByName members := by
    simp only [sortMembers, totalsByName, insertSorted_eq]
  rw [heq]
  exact ascending_totalsByName members

/-- What is put in is found under its name, and what is there under other names stays. -/
theorem find?_insertSorted (name asked : String) (value : Json) (members : List (String × Json)) :
    (insertSorted name value members).find? (fun m => m.1 == asked) =
      if name = asked then some (name, value) else members.find? fun m => m.1 == asked := by
  induction members with
  | nil => by_cases heq : name = asked <;> simp [insertSorted, heq]
  | cons first members ih =>
    obtain ⟨other, old⟩ := first
    rw [insertSorted]
    cases hcompare : compare name other with
    | lt => by_cases heq : name = asked <;> simp [heq]
    | eq =>
      obtain rfl := Std.LawfulEqOrd.eq_of_compare hcompare
      by_cases heq : name = asked <;> simp [heq]
    | gt =>
      have hne : name ≠ other := by
        rintro rfl
        rw [Std.ReflOrd.compare_self] at hcompare
        cases hcompare
      dsimp only
      by_cases hother : other = asked
      · rw [List.find?_cons_of_pos (by simp [hother]), List.find?_cons_of_pos (by simp [hother]),
          if_neg (hother ▸ hne)]
      · rw [List.find?_cons_of_neg (by simp [hother]), List.find?_cons_of_neg (by simp [hother]),
          ih]

/-- An object has the last of the members of a name. -/
theorem member?_sorted (name : String) (members : List (String × Json)) :
    (sorted members).member? name =
      (members.reverse.find? fun m => m.1 == name).map Prod.snd := by
  have hfind : (sortMembers members).find? (fun m => m.1 == name) =
      members.reverse.find? fun m => m.1 == name := by
    induction members using List.reverseRecOn with
    | nil => rfl
    | append_singleton members last ih =>
      rw [sortMembers, List.foldl_append, List.foldl_cons, List.foldl_nil, ← sortMembers,
        find?_insertSorted, ih, List.reverse_append, List.reverse_singleton, List.singleton_append]
      by_cases heq : last.1 = name
      · rw [if_pos heq, List.find?_cons_of_pos (by simp [heq])]
      · rw [if_neg heq, List.find?_cons_of_neg (by simp [heq])]
  rw [sorted, member?, hfind]

/-- A member that no later one takes the place of is found. -/
theorem member?_sorted_of_last {members : List (String × Json)} {position : Nat}
    {m : String × Json} (hm : members[position]? = some m)
    (hlast : ∀ later n, position < later → members[later]? = some n → n.1 ≠ m.1) :
    (sorted members).member? m.1 = some m.2 := by
  obtain ⟨hlt, hget⟩ := List.getElem?_eq_some_iff.1 hm
  have hreverse : members.reverse =
      (members.drop (position + 1)).reverse ++ m :: (members.take position).reverse := by
    calc members.reverse = (members.take position ++ m :: members.drop (position + 1)).reverse := by
          rw [← hget, List.getElem_cons_drop, List.take_append_drop]
      _ = _ := by rw [List.reverse_append, List.reverse_cons, List.append_assoc,
          List.singleton_append]
  have hfind : members.reverse.find? (fun n => n.1 == m.1) = some m := by
    refine List.find?_eq_some_iff_append.2 ⟨beq_self_eq_true _, _, _, hreverse, fun n hn => ?_⟩
    obtain ⟨offset, hn⟩ := List.mem_iff_getElem?.1 (List.mem_reverse.1 hn)
    rw [List.getElem?_drop] at hn
    simpa using hlast _ n (by omega) hn
  rw [member?_sorted, hfind, Option.map_some]

/-- What is found was put in. -/
theorem mem_of_member?_sorted {name : String} {value : Json} {members : List (String × Json)}
    (h : (sorted members).member? name = some value) : (name, value) ∈ members := by
  rw [member?_sorted, Option.map_eq_some_iff] at h
  obtain ⟨m, hm, rfl⟩ := h
  have hname : m.1 = name := by simpa using List.find?_some hm
  rw [← hname]
  exact List.mem_reverse.1 (List.mem_of_find?_eq_some hm)

/-- An object has a member of a name iff one was put in. -/
theorem isSome_member?_sorted_iff {name : String} {members : List (String × Json)} :
    ((sorted members).member? name).isSome = true ↔ ∃ m ∈ members, m.1 = name := by
  rw [member?_sorted, Option.isSome_map, List.find?_isSome]
  simp only [List.mem_reverse, beq_iff_eq]

/-! ## Members read off a text -/

theorem rawOf_injective : Function.Injective rawOf := by
  intro a b h
  have htext := RawText.text_rawOf a
  rw [h, RawText.text_rawOf b, Except.ok.injEq] at htext
  exact htext.symm

theorem map_node_find?_eq {members others : List (String × Json)}
    (h : memberNodes members = memberNodes others) (name : String) :
    (members.find? fun m => m.1 == name).map (fun m => m.2.node) =
      (others.find? fun m => m.1 == name).map fun m => m.2.node := by
  induction members generalizing others with
  | nil =>
    cases others with
    | nil => rfl
    | cons other others => cases h
  | cons first members ih =>
    cases others with
    | nil => cases h
    | cons other others =>
      rw [memberNodes, memberNodes, List.cons.injEq, Prod.mk.injEq] at h
      obtain ⟨⟨hname, hnode⟩, hrest⟩ := h
      rw [List.find?_cons, List.find?_cons, rawOf_injective hname]
      cases other.1 == name with
      | true => exact congrArg some hnode
      | false => exact ih hrest

/-- Objects with the same text have members that are written alike. -/
theorem node_member?_eq {members others : List (String × Json)}
    (h : (sorted members).compact = (sorted others).compact) (name : String) :
    ((sorted members).member? name).map node = ((sorted others).member? name).map node := by
  have htext : (sorted members).compactText = (sorted others).compactText :=
    String.ofList_injective h
  have hnode : (sorted members).node = (sorted others).node := by
    have hread := read_compactText (sorted members)
    rw [htext, read_compactText, Prod.mk.injEq] at hread
    exact hread.1.symm
  rw [sorted, sorted, node, node, Node.table.injEq] at hnode
  rw [sorted, sorted, member?, member?, Option.map_map, Option.map_map]
  exact map_node_find?_eq hnode.1 name

/-- Whether a value is an object whose names ascend, so that no name is there twice. -/
def IsSortedObject (j : Json) : Prop := ∃ members, j = .object members ∧ NamedAscending members

theorem isSortedObject_sorted (members : List (String × Json)) : (sorted members).IsSortedObject :=
  ⟨_, rfl, ascending_sortMembers members⟩

end Json

/-! ## Compound entries -/

namespace Dimension

variable {d : Dimension} {values : List Value}

/-- The members of the attributes. -/
def attributeMembers (d : Dimension) (values : List Value) : List (String × Json) :=
  (d.attributes.zip values).map fun (a, value) => (a.name, value.toJson)

/-- The member of the taxonomy, unless an attribute has its name. -/
def taxonomyMember (d : Dimension) (values : List Value) : List (String × Json) :=
  if (d.attributeMembers values).any fun m => m.1 == "taxonomy" then []
  else (d.taxonomy?.map fun taxonomy => ("taxonomy", Json.string taxonomy)).toList

theorem compoundMembers_eq (d : Dimension) (values : List Value) :
    compoundMembers d values = d.attributeMembers values ++ d.taxonomyMember values := by
  rw [compoundMembers, taxonomyMember, ← attributeMembers]
  cases d.taxonomy? with
  | none => simp
  | some taxonomy => cases (d.attributeMembers values).any fun m => m.1 == "taxonomy" <;> simp

theorem getElem?_attributeMembers {position : Nat} {m : String × Json} :
    (d.attributeMembers values)[position]? = some m ↔
      ∃ a value, d.attributes[position]? = some a ∧ values[position]? = some value ∧
        (a.name, value.toJson) = m := by
  rw [attributeMembers, List.getElem?_map, Option.map_eq_some_iff]
  simp only [Prod.exists, List.getElem?_zip_eq_some, and_assoc]

/-- Where every attribute has a value, every attribute has a member. -/
theorem exists_mem_attributeMembers_iff (h : d.attributes.length = values.length) {name : String} :
    (∃ m ∈ d.attributeMembers values, m.1 = name) ↔ ∃ a ∈ d.attributes, a.name = name := by
  simp only [List.mem_iff_getElem?, getElem?_attributeMembers]
  constructor
  · rintro ⟨_, ⟨position, a, value, ha, -, rfl⟩, rfl⟩
    exact ⟨a, ⟨position, ha⟩, rfl⟩
  · rintro ⟨a, ⟨position, ha⟩, rfl⟩
    obtain ⟨hlt, -⟩ := List.getElem?_eq_some_iff.1 ha
    exact ⟨_, ⟨position, a, _, ha, List.getElem?_eq_getElem (h ▸ hlt), rfl⟩, rfl⟩

theorem mem_taxonomyMember_iff (h : d.attributes.length = values.length) {m : String × Json} :
    m ∈ d.taxonomyMember values ↔
      (∀ a ∈ d.attributes, a.name ≠ "taxonomy") ∧
        ∃ taxonomy, d.taxonomy? = some taxonomy ∧ ("taxonomy", Json.string taxonomy) = m := by
  have hany : ((d.attributeMembers values).any fun m => m.1 == "taxonomy") = true ↔
      ∃ a ∈ d.attributes, a.name = "taxonomy" := by
    rw [List.any_eq_true, ← exists_mem_attributeMembers_iff h]
    simp only [beq_iff_eq]
  rw [taxonomyMember]
  split
  · rename_i htaken
    obtain ⟨a, ha, hname⟩ := hany.1 htaken
    exact iff_of_false List.not_mem_nil fun hfree => hfree.1 a ha hname
  · rename_i htaken
    rw [hany] at htaken
    push Not at htaken
    rw [and_iff_right htaken, Option.mem_toList, Option.map_eq_some_iff]

/-- A compound entry has a member for each attribute, and one for its taxonomy. -/
theorem isSome_member?_compoundMembers_iff (h : d.attributes.length = values.length)
    {name : String} :
    ((Json.sorted (compoundMembers d values)).member? name).isSome = true ↔
      (∃ a ∈ d.attributes, a.name = name) ∨ name = "taxonomy" ∧ d.taxonomy?.isSome = true := by
  rw [Json.isSome_member?_sorted_iff, compoundMembers_eq]
  simp only [List.mem_append, or_and_right, exists_or, exists_mem_attributeMembers_iff h]
  constructor
  · rintro (hattribute | ⟨_, hm, rfl⟩)
    · exact .inl hattribute
    · obtain ⟨-, taxonomy, htaxonomy, rfl⟩ := (mem_taxonomyMember_iff h).1 hm
      exact .inr ⟨rfl, Option.isSome_iff_exists.2 ⟨taxonomy, htaxonomy⟩⟩
  · rintro (hattribute | ⟨rfl, hsome⟩)
    · exact .inl hattribute
    · by_cases htaken : ∃ a ∈ d.attributes, a.name = "taxonomy"
      · exact .inl htaken
      · push Not at htaken
        obtain ⟨taxonomy, htaxonomy⟩ := Option.isSome_iff_exists.1 hsome
        exact .inr ⟨_, (mem_taxonomyMember_iff h).2 ⟨htaken, taxonomy, htaxonomy, rfl⟩, rfl⟩

/-- An attribute that is the last of its name has its value. -/
theorem member?_attribute (h : d.attributes.length = values.length) {position : Nat} {a : Attribute}
    (ha : d.attributes[position]? = some a) {value : Value}
    (hvalue : values[position]? = some value)
    (hlast : ∀ later b, position < later → d.attributes[later]? = some b → b.name ≠ a.name) :
    (Json.sorted (compoundMembers d values)).member? a.name = some value.toJson := by
  have hmember : (d.attributeMembers values)[position]? = some (a.name, value.toJson) :=
    getElem?_attributeMembers.2 ⟨a, value, ha, hvalue, rfl⟩
  have hplace : (d.attributeMembers values ++ d.taxonomyMember values)[position]? =
      some (a.name, value.toJson) := by
    rw [List.getElem?_append_left (List.getElem?_eq_some_iff.1 hmember).1, hmember]
  rw [compoundMembers_eq]
  refine Json.member?_sorted_of_last hplace fun later n hlater hn => ?_
  rw [List.getElem?_append] at hn
  split at hn
  · obtain ⟨b, _, hb, -, rfl⟩ := getElem?_attributeMembers.1 hn
    exact hlast later b hlater hb
  · obtain ⟨hfree, _, -, rfl⟩ := (mem_taxonomyMember_iff h).1 (List.mem_of_getElem? hn)
    exact (hfree a (List.mem_of_getElem? ha)).symm

/-- The taxonomy is there unless an attribute has its name. -/
theorem member?_taxonomy (h : d.attributes.length = values.length)
    (hfree : ∀ a ∈ d.attributes, a.name ≠ "taxonomy") :
    (Json.sorted (compoundMembers d values)).member? "taxonomy" = d.taxonomy?.map .string := by
  have hsome : ((Json.sorted (compoundMembers d values)).member? "taxonomy").isSome = true ↔ _ :=
    isSome_member?_compoundMembers_iff h
  cases hfound : (Json.sorted (compoundMembers d values)).member? "taxonomy" with
  | none =>
    rw [hfound] at hsome
    cases htaxonomy : d.taxonomy? with
    | none => rfl
    | some taxonomy => exact absurd (hsome.2 (.inr ⟨rfl, by rw [htaxonomy]; rfl⟩)) (by simp)
  | some value =>
    have hmem := Json.mem_of_member?_sorted hfound
    rw [compoundMembers_eq, List.mem_append] at hmem
    rcases hmem with hmem | hmem
    · obtain ⟨a, ha, hname⟩ := (exists_mem_attributeMembers_iff h).1 ⟨_, hmem, rfl⟩
      exact absurd hname (hfree a ha)
    · obtain ⟨-, taxonomy, htaxonomy, heq⟩ := (mem_taxonomyMember_iff h).1 hmem
      rw [htaxonomy, Option.map_some, (Prod.mk.inj heq).2]

/-- An attribute that no other of its dimension is named like is the last of its name. -/
theorem last_of_nodup (h : (d.attributes.map Attribute.name).Nodup)
    {position : Nat} {a : Attribute} (ha : d.attributes[position]? = some a) :
    ∀ later b, position < later → d.attributes[later]? = some b → b.name ≠ a.name := by
  intro later b hlater hb
  obtain ⟨hlt, rfl⟩ := List.getElem?_eq_some_iff.1 hb
  obtain ⟨hlt', rfl⟩ := List.getElem?_eq_some_iff.1 ha
  exact (List.pairwise_iff_getElem.1 (List.pairwise_map.1 h) position later hlt' hlt hlater).symm

end Dimension

/-! ## Records -/

namespace Record

variable {schema : Schema} {record : Record}

/-- The members of the dimensions. -/
def dimensionMembers (schema : Schema) (record : Record) : List (String × Json) :=
  (schema.dimensions.zip record.contents).map fun (d, entry) => (d.name, entryJson d entry)

theorem toJson_eq (schema : Schema) (record : Record) :
    record.toJson schema =
      .sorted (("id", .string record.id) :: record.dimensionMembers schema) := rfl

theorem getElem?_dimensionMembers {index : Nat} {m : String × Json} :
    (record.dimensionMembers schema)[index]? = some m ↔
      ∃ d entry, schema.dimensions[index]? = some d ∧ record.contents[index]? = some entry ∧
        (d.name, entryJson d entry) = m := by
  rw [dimensionMembers, List.getElem?_map, Option.map_eq_some_iff]
  simp only [Prod.exists, List.getElem?_zip_eq_some, and_assoc]

/-- Every dimension has its member. -/
theorem member?_toJson_of_dimension (hnames : (schema.dimensions.map Dimension.name).Nodup)
    {index : Nat} {d : Dimension} (hd : schema.dimensions[index]? = some d) {entry : Entry}
    (hentry : record.contents[index]? = some entry) :
    (record.toJson schema).member? d.name = some (entryJson d entry) := by
  have hplace : (("id", .string record.id) :: record.dimensionMembers schema)[index + 1]? =
      some (d.name, entryJson d entry) := by
    rw [List.getElem?_cons_succ]
    exact getElem?_dimensionMembers.2 ⟨d, entry, hd, hentry, rfl⟩
  rw [toJson_eq]
  refine Json.member?_sorted_of_last hplace fun later n hlater hn => ?_
  obtain ⟨later, rfl⟩ := Nat.exists_eq_succ_of_ne_zero (Nat.ne_zero_of_lt hlater)
  rw [Nat.succ_eq_add_one, List.getElem?_cons_succ] at hn
  obtain ⟨e, _, he, -, rfl⟩ := getElem?_dimensionMembers.1 hn
  intro hname
  have hindex := (Schema.dimensionIndex?_eq_some_iff hnames).2 ⟨d, hd, rfl⟩
  rw [(Schema.dimensionIndex?_eq_some_iff hnames).2 ⟨e, he, hname⟩] at hindex
  cases hindex
  exact Nat.lt_irrefl _ hlater

/-- The id is there unless a dimension has its name. -/
theorem member?_toJson_id (hfree : ∀ d ∈ schema.dimensions, d.name ≠ "id") :
    (record.toJson schema).member? "id" = some (.string record.id) := by
  have hplace : (("id", Json.string record.id) :: record.dimensionMembers schema)[0]? =
      some ("id", .string record.id) := rfl
  rw [toJson_eq]
  refine Json.member?_sorted_of_last hplace fun later n hlater hn => ?_
  obtain ⟨later, rfl⟩ := Nat.exists_eq_succ_of_ne_zero (Nat.ne_zero_of_lt hlater)
  rw [Nat.succ_eq_add_one, List.getElem?_cons_succ] at hn
  obtain ⟨d, _, hd, -, rfl⟩ := getElem?_dimensionMembers.1 hn
  exact hfree d (List.mem_of_getElem? hd)

/-- Without a dimension of its name, the id can be read off the line of a record. -/
theorem id_eq_of_compact_eq (hfree : ∀ d ∈ schema.dimensions, d.name ≠ "id") {other : Record}
    (h : (other.toJson schema).compact = (record.toJson schema).compact) :
    other.id = record.id := by
  rw [toJson_eq, toJson_eq] at h
  have hmember := Json.node_member?_eq h "id"
  rw [← toJson_eq, ← toJson_eq, member?_toJson_id hfree, member?_toJson_id hfree] at hmember
  simp only [Option.map_some, Option.some.injEq, Json.node, Json.Node.text.injEq] at hmember
  exact Json.rawOf_injective hmember

/-- What a compound dimension is exported as. -/
structure IsNested (record : Record) (index : Nat) (d : Dimension) (nested : Json) : Prop where
  isSortedObject : nested.IsSortedObject
  names : ∀ name, (nested.member? name).isSome = true ↔
    (∃ a ∈ d.attributes, a.name = name) ∨ name = "taxonomy" ∧ d.taxonomy?.isSome = true
  /-- Of attributes that share a name, the last one is exported. -/
  last_attribute : ∀ position a, d.attributes[position]? = some a →
    (∀ later b, position < later → d.attributes[later]? = some b → b.name ≠ a.name) →
    ∃ value, record.value? (.component index position) = some value ∧
      nested.member? a.name = some value.toJson
  taxonomy : (∀ a ∈ d.attributes, a.name ≠ "taxonomy") →
    nested.member? "taxonomy" = d.taxonomy?.map .string

/-- What a record is exported as. -/
structure IsExported (schema : Schema) (record : Record) (json : Json) : Prop where
  isSortedObject : json.IsSortedObject
  names : ∀ name, (json.member? name).isSome = true ↔
    name = "id" ∨ ∃ d ∈ schema.dimensions, d.name = name
  /-- The id is there unless a dimension has its name. -/
  id : (∀ d ∈ schema.dimensions, d.name ≠ "id") → json.member? "id" = some (.string record.id)
  scalar : ∀ index d, schema.dimensions[index]? = some d → d.isCompound = false →
    ∃ value, record.value? (.scalar index) = some value ∧
      json.member? d.name = some value.toJson
  compound : ∀ index d, schema.dimensions[index]? = some d → d.isCompound = true →
    ∃ nested, json.member? d.name = some nested ∧ record.IsNested index d nested
  /-- A dimension that shows all its fields is exported as its paths say. -/
  resolved : ∀ d ∈ schema.dimensions, d.ShowsAll → ∀ a ∈ d.attributes,
    ∃ field value, schema.resolve? (d.name ++ "." ++ a.name) = some field ∧
      record.value? field = some value ∧
      (json.member? d.name).bind (Json.member? a.name) = some value.toJson

/-- A compound entry is exported as a nested object. -/
theorem isNested_compound {index : Nat} {d : Dimension} {values : List Value}
    (hentry : record.contents[index]? = some (.compound values))
    (h : d.attributes.length = values.length) :
    record.IsNested index d (entryJson d (.compound values)) := by
  constructor
  · exact Json.isSortedObject_sorted _
  · exact fun _ => Dimension.isSome_member?_compoundMembers_iff h
  · intro position a ha hlast
    obtain ⟨hlt, -⟩ := List.getElem?_eq_some_iff.1 ha
    have hvalue : values[position]? = some values[position] := List.getElem?_eq_getElem (h ▸ hlt)
    refine ⟨values[position], ?_, Dimension.member?_attribute h ha hvalue hlast⟩
    simp only [value?, valueAt, Field.dimension, hentry, hvalue]
  · exact Dimension.member?_taxonomy h

/-- A compound dimension has its nested object. -/
theorem exists_isNested (hnames : (schema.dimensions.map Dimension.name).Nodup)
    (hadmits : schema.Admits record.contents) {index : Nat} {d : Dimension}
    (hd : schema.dimensions[index]? = some d) (hcompound : d.isCompound = true) :
    ∃ nested, (record.toJson schema).member? d.name = some nested ∧
      record.IsNested index d nested := by
  obtain ⟨entry, hentry, hfits⟩ := hadmits.exists_entry hd
  cases hfits with
  | scalar hcontent _ => simp [Dimension.isCompound, hcontent] at hcompound
  | @compound attributes values hcontent hvalues =>
    have hlength : d.attributes.length = values.length := by
      rw [Dimension.attributes, hcontent]
      exact List.Forall₂.length_eq hvalues
    exact ⟨_, member?_toJson_of_dimension hnames hd hentry, isNested_compound hentry hlength⟩

/-- What a record with an entry for every dimension is exported as. -/
theorem isExported_toJson (hnames : (schema.dimensions.map Dimension.name).Nodup)
    (hadmits : schema.Admits record.contents) :
    record.IsExported schema (record.toJson schema) := by
  constructor
  · exact Json.isSortedObject_sorted _
  · intro name
    rw [toJson_eq, Json.isSome_member?_sorted_iff, List.exists_mem_cons_iff, eq_comm]
    refine or_congr_right ⟨?_, ?_⟩
    · rintro ⟨m, hm, rfl⟩
      obtain ⟨index, hm⟩ := List.mem_iff_getElem?.1 hm
      obtain ⟨d, _, hd, -, rfl⟩ := getElem?_dimensionMembers.1 hm
      exact ⟨d, List.mem_of_getElem? hd, rfl⟩
    · rintro ⟨d, hd, rfl⟩
      obtain ⟨index, hd⟩ := List.mem_iff_getElem?.1 hd
      obtain ⟨entry, hentry, -⟩ := hadmits.exists_entry hd
      exact ⟨_, List.mem_of_getElem? (getElem?_dimensionMembers.2 ⟨d, entry, hd, hentry, rfl⟩), rfl⟩
  · exact member?_toJson_id
  · intro index d hd hscalar
    obtain ⟨entry, hentry, hfits⟩ := hadmits.exists_entry hd
    cases hfits with
    | @scalar _ _ value _ _ =>
      refine ⟨value, ?_, member?_toJson_of_dimension hnames hd hentry⟩
      simp only [value?, valueAt, Field.dimension, hentry]
    | compound hcontent _ => simp [Dimension.isCompound, hcontent] at hscalar
  · exact fun _ _ => exists_isNested hnames hadmits
  · intro d hd hshows a ha
    obtain ⟨index, hd⟩ := List.mem_iff_getElem?.1 hd
    obtain ⟨position, ha⟩ := List.mem_iff_getElem?.1 ha
    have hcompound : d.isCompound = true := by
      by_contra hscalar
      rw [d.attributes_eq_nil (Bool.eq_false_iff.2 hscalar)] at ha
      cases ha
    obtain ⟨nested, hnested, hentry⟩ := exists_isNested hnames hadmits hd hcompound
    obtain ⟨value, hvalue, hmember⟩ :=
      hentry.last_attribute position a ha (Dimension.last_of_nodup hshows.attributes_nodup ha)
    have hposition : d.attributeIndex? a.name = some position := by
      refine Dimension.attributeIndex?_eq_some_iff.2 ⟨⟨a, ha, rfl⟩, fun earlier hearlier => ?_⟩
      obtain ⟨hlt, -⟩ := List.getElem?_eq_some_iff.1 ha
      have hget := List.getElem?_eq_getElem (Nat.lt_trans hearlier hlt)
      rw [Schema.attributeName_eq hget]
      exact (Dimension.last_of_nodup hshows.attributes_nodup hget position a hearlier ha).symm
    have hpath : schema.pathOf (.component index position) = d.name ++ "." ++ a.name := by
      simp only [Schema.pathOf, Field.dimension, hd, Schema.attributeName_eq ha]
    refine ⟨.component index position, value, ?_, hvalue, ?_⟩
    · rw [← hpath]
      exact Schema.resolve?_pathOf_component hnames hd hshows.no_point hposition
    · rw [hnested, Option.bind_some, hmember]

end Record

/-! ## Validated schemas -/

/-- What the facts of a validated schema are exported as, with or without an ordinal in their ids.
Where no dimension is named like the id, records with different ids have different lines. -/
theorem Document.exports_of_validate {doc : Document} {schema : Schema}
    (hvalid : doc.validate = .ok schema) {record : Record} (hrecord : schema.IsFact record) :
    record.IsExported schema (record.toJson schema) ∧
      ((∀ d ∈ schema.dimensions, d.name ≠ "id") → ∀ other : Record, other.id ≠ record.id →
        (other.toJson schema).compact ≠ (record.toJson schema).compact) := by
  have hschema := Document.wellFormed_of_validate hvalid
  exact ⟨Record.isExported_toJson hschema.names_nodup (hrecord.admits hschema),
    fun hfree _ hne heq => hne (Record.id_eq_of_compact_eq hfree heq)⟩

/-- A classifier with its taxonomy, a year and an amount. -/
theorem Document.exports_of_validate_sample :
    Sample.grantsDocument.validate = .ok Sample.grantsSchema ∧
      Sample.grantsSchema.IsFact (Sample.grantFact.withOrdinal 3) ∧
      (Sample.grantFact.withOrdinal 3).IsExported Sample.grantsSchema
        ((Sample.grantFact.withOrdinal 3).toJson Sample.grantsSchema) ∧
      (((Sample.grantFact.withOrdinal 3).toJson Sample.grantsSchema).member? "purpose").bind
        (Json.member? "taxonomy") = some (.string "cofog") ∧
      ∀ other : Record, other.id ≠ (Sample.grantFact.withOrdinal 3).id →
        (other.toJson Sample.grantsSchema).compact ≠
          ((Sample.grantFact.withOrdinal 3).toJson Sample.grantsSchema).compact := by
  have hfact : Sample.grantsSchema.IsFact (Sample.grantFact.withOrdinal 3) :=
    ⟨_, _, Sample.mapRow_grant, rfl⟩
  obtain ⟨hexported, hlines⟩ := exports_of_validate Sample.validate_grants hfact
  have hfree : ∀ d ∈ Sample.grantsSchema.dimensions, d.name ≠ "id" := by decide
  exact ⟨Sample.validate_grants, hfact, hexported, rfl, hlines hfree⟩

/-! ## Samples -/

namespace Sample

/-- A document with a number named like the id. -/
def numberedDocument : Document where
  dataset := ⟨"budget", "", "", "GBP"⟩
  mapping := [("id", "id")]
  dimensions :=
    [("id", ⟨"value", "", "", some "integer", [], none, false, false, none, none, none⟩)]
  views := []

/-- The schema of the document. -/
def numberedSchema : Schema where
  dataset := ⟨"budget", "", "", "GBP"⟩
  dimensions := [⟨"id", .value, "", "", false, false, none, none, none, .scalar .integer none⟩]
  fields := [⟨"id", "id", .scalar 0, .integer, none, false⟩]
  taxonomies := []
  views := []

theorem validate_numbered : numberedDocument.validate = .ok numberedSchema := rfl

/-- A fact of the document. -/
def numberedFact : Record := .ofContents numberedSchema [.scalar (.integer 7)]

theorem mapRow_numbered : mapRow numberedSchema (.ofList [("id", "7")]) = .ok numberedFact := by
  have hcell : cellText? (.ofList [("id", "7")]) "id" = some "7" := by
    simp [cellText?, Row.ofList, Row.get?_insert]
  have hfill : fillSlots (.ofList [("id", "7")]) (emptyContents numberedSchema)
      numberedSchema.fields = .ok [.scalar (.integer 7)] := by
    simp only [numberedSchema, fillSlots, slotValue, hcell]
    rfl
  rw [mapRow, hfill]
  rfl

/-- A document with an entity that declares its label as a text and again as a number. -/
def relabelledDocument : Document where
  dataset := ⟨"budget", "", "", "GBP"⟩
  mapping := [("to.name", "to"), ("to.label", "label")]
  dimensions :=
    [("to", ⟨"entity", "", "", none,
      [("name", ⟨"string", none⟩), ("label", ⟨"string", none⟩), ("label", ⟨"integer", none⟩)],
      none, false, false, none, none, none⟩)]
  views := []

/-- The schema of the document. -/
def relabelledSchema : Schema where
  dataset := ⟨"budget", "", "", "GBP"⟩
  dimensions :=
    [⟨"to", .entity, "", "", false, false, none, none, none,
      .compound [⟨"name", .string, none⟩, ⟨"label", .string, none⟩, ⟨"label", .integer, none⟩]⟩]
  fields :=
    [⟨"to.name", "to", .component 0 0, .string, none, true⟩,
     ⟨"to.label", "label", .component 0 1, .string, none, true⟩,
     ⟨"to.label", "label", .component 0 2, .integer, none, false⟩]
  taxonomies := []
  views := []

theorem validate_relabelled : relabelledDocument.validate = .ok relabelledSchema := rfl

/-- A fact of the document. -/
def relabelledFact : Record :=
  .ofContents relabelledSchema
    [.compound [.string "Council", .string "7", .integer 7]]

/-- The row of the fact. -/
def relabelledRow : Row := .ofList [("to", "Council"), ("label", "7")]

theorem mapRow_relabelled : mapRow relabelledSchema relabelledRow = .ok relabelledFact := by
  have hname : cellText? relabelledRow "to" = some "Council" := by
    simp [cellText?, relabelledRow, Row.ofList, Row.get?_insert]
  have hlabel : cellText? relabelledRow "label" = some "7" := by
    simp [cellText?, relabelledRow, Row.ofList, Row.get?_insert]
  have hfill : fillSlots relabelledRow (emptyContents relabelledSchema) relabelledSchema.fields =
      .ok [.compound [.string "Council", .string "7", .integer 7]] := by
    simp only [relabelledSchema, fillSlots, slotValue, hname, hlabel]
    rfl
  rw [mapRow, hfill]
  rfl

end Sample

/-- A number named like the id takes its place, so that two facts share a line, and of two
attributes of a name the first, which the path means, is lost. -/
theorem not_forall_exports :
    (¬ ∀ doc schema row record, Document.validate doc = .ok schema →
      mapRow schema row = .ok record →
      (record.toJson schema).member? "id" = some (.string record.id)) ∧
    (¬ ∀ doc schema a b, Document.validate doc = .ok schema → schema.IsFact a → schema.IsFact b →
      a.id ≠ b.id → (a.toJson schema).compact ≠ (b.toJson schema).compact) ∧
    ¬ ∀ doc schema row record, Document.validate doc = .ok schema →
      mapRow schema row = .ok record → ∀ d ∈ schema.dimensions, ∀ a ∈ d.attributes,
      ∀ field value, schema.resolve? (d.name ++ "." ++ a.name) = some field →
      record.value? field = some value →
      ((record.toJson schema).member? d.name).bind (Json.member? a.name) = some value.toJson := by
  refine ⟨fun h => ?_, fun h => ?_, fun h => ?_⟩
  · have hid := h _ _ _ _ Sample.validate_numbered Sample.mapRow_numbered
    have hmember : (Sample.numberedFact.toJson Sample.numberedSchema).member? "id" =
        some (.integer 7) := rfl
    rw [hmember] at hid
    cases hid
  · have hfact : ∀ ordinal,
        Sample.numberedSchema.IsFact (Sample.numberedFact.withOrdinal ordinal) :=
      fun _ => ⟨_, _, Sample.mapRow_numbered, rfl⟩
    have hjson : ∀ ordinal, (Sample.numberedFact.withOrdinal ordinal).toJson Sample.numberedSchema =
        .object [("id", .integer 7)] := fun _ => rfl
    refine h _ _ _ _ Sample.validate_numbered (hfact 0) (hfact 1) (by decide +kernel) ?_
    rw [hjson, hjson]
  · have hlabel := h _ _ _ _ Sample.validate_relabelled Sample.mapRow_relabelled _
      List.mem_cons_self ⟨"label", .string, none⟩ (List.mem_cons_of_mem _ List.mem_cons_self)
      (.component 0 1) (.string "7") (by decide) rfl
    have hmember : ((Sample.relabelledFact.toJson Sample.relabelledSchema).member? "to").bind
        (Json.member? "label") = some (.integer 7) := rfl
    rw [show Dimension.name _ = "to" from rfl, hmember] at hlabel
    cases hlabel

end FactCube
