import FactCube.Proofs.Batches
import FactCube.Proofs.Columns
import FactCube.Proofs.Taxonomies
import FactCube.Taxonomy.Index

/-!
# Taxonomy indexes of facts

The index of a store is told by its facts. What it knows of a code is what the first fact with that
code shows, and which codes a level has depends on nothing but the entries of its classifier. This
rests on validation: as no two taxonomies have one name and no two levels of a taxonomy one number,
nothing is overwritten when the index is built.

Results:
* `getElem?_entries_build`: the entry of a code is that of the first fact that shows it.
* `TaxonomyIndex.isIndexOf_build`: the index that is built from facts lists what they show.
* `not_forall_codes_eq_distinct`: the values at the path of a classifier's name can be other ones.
-/

namespace FactCube

/-! ## Maps that are filled in steps -/

section Maps

variable {α β γ : Type} {cmp : β → β → Ordering}

/-- Steps that do not touch a key leave what is there. -/
theorem getElem?_foldl_of_forall {step : Std.TreeMap β γ cmp → α → Std.TreeMap β γ cmp}
    {items : List α} {key : β} (h : ∀ a ∈ items, ∀ m, (step m a)[key]? = m[key]?)
    (m : Std.TreeMap β γ cmp) : (items.foldl step m)[key]? = m[key]? := by
  induction items generalizing m with
  | nil => rfl
  | cons a items ih =>
    rw [List.foldl_cons, ih (fun b hb => h b (List.mem_cons_of_mem _ hb)),
      h a List.mem_cons_self]

/-- What a step inserts stays if no other step touches its key. -/
theorem getElem?_foldl_of_mem {step : Std.TreeMap β γ cmp → α → Std.TreeMap β γ cmp}
    {items : List α} {key : α → β} (hnodup : (items.map key).Nodup)
    (hother : ∀ a ∈ items, ∀ k, k ≠ key a → ∀ m, (step m a)[k]? = m[k]?) {a : α} (ha : a ∈ items)
    {v : γ} (hstep : ∀ m, (step m a)[key a]? = some v) (m : Std.TreeMap β γ cmp) :
    (items.foldl step m)[key a]? = some v := by
  obtain ⟨before, after, rfl⟩ := List.append_of_mem ha
  rw [List.foldl_append, List.foldl_cons, getElem?_foldl_of_forall, hstep]
  intro b hb
  refine hother b (List.mem_append_right _ (List.mem_cons_of_mem _ hb)) _ fun heq => ?_
  rw [List.map_append, List.map_cons, List.nodup_append] at hnodup
  exact (List.nodup_cons.1 hnodup.2.1).1 (heq ▸ List.mem_map_of_mem hb)

theorem values_eq_map_toList (m : Std.TreeMap β γ cmp) : m.values = m.toList.map Prod.snd := by
  have hvalues : m.values = m.foldr (fun _ v values => v :: values) [] := rfl
  rw [hvalues, Std.TreeMap.foldr_eq_foldr_toList, List.map_eq_foldr]

end Maps

/-! ## Texts of attributes -/

/-- The text of an attribute of a dimension at a position, empty if it is not declared. -/
def Dimension.textAt (d : Dimension) (index : Nat) (name : String) (contents : Contents) :
    String :=
  match (d.attributeIndex? name).bind fun position =>
      valueAt contents (.component index position) with
  | some v => v.display
  | none => ""

/-- What a fact shows of a classifier at a position. -/
def Dimension.entryAt (d : Dimension) (index : Nat) (fact : Record) : ClassifierEntry where
  name := d.textAt index nameAttribute fact.contents
  label := d.textAt index "label" fact.contents
  description := d.textAt index "description" fact.contents
  changeDate := d.textAt index "change_date" fact.contents

theorem attributeText_eq_textAt {contents : Contents} {index : Nat} {values : List Value}
    (h : contents[index]? = some (.compound values)) (d : Dimension) (name : String) :
    attributeText d name values = d.textAt index name contents := by
  have hvalue : ∀ position, valueAt contents (.component index position) = values[position]? := by
    intro position
    simp only [valueAt, Field.dimension, h]
  have hfound : ((d.attributeIndex? name).bind fun position => values[position]?) =
      (d.attributeIndex? name).bind fun position =>
        valueAt contents (.component index position) := by simp only [hvalue]
  exact congrArg (fun found : Option Value => match found with | some v => v.display | none => "")
    hfound

/-- Only a compound entry has attributes. -/
theorem textAt_of_not_compound {contents : Contents} {index : Nat}
    (h : ∀ values, contents[index]? ≠ some (.compound values)) (d : Dimension) (name : String) :
    d.textAt index name contents = "" := by
  have hvalue : ∀ position, valueAt contents (.component index position) = none := by
    intro position
    cases hentry : contents[index]? with
    | none => simp only [valueAt, Field.dimension, hentry]
    | some entry =>
      cases entry with
      | scalar v => simp only [valueAt, Field.dimension, hentry]
      | compound values => exact absurd hentry (h values)
  simp only [Dimension.textAt, hvalue, Option.bind_fun_none]

/-- A record has an entry for a classifier unless it leaves the name empty. -/
theorem entryIn?_eq (d : Dimension) (index : Nat) (record : Record) :
    entryIn? d index record =
      if d.textAt index nameAttribute record.contents = "" then none
      else some (d.entryAt index record) := by
  rw [entryIn?]
  split
  · rename_i values hentry
    simp only [entryOf?, attributeText_eq_textAt hentry, String.isEmpty_iff, Dimension.entryAt]
  · rename_i hentry
    rw [textAt_of_not_compound (fun values hvalues => hentry values hvalues), if_pos rfl]

/-! ## The entries of a level -/

theorem getElem?_foldl_insertIfNew (entries : List ClassifierEntry)
    (index : Std.TreeMap String ClassifierEntry) (code : String) :
    (entries.foldl (fun index entry => index.insertIfNew entry.name entry) index)[code]? =
      (index[code]?).or (entries.find? fun entry => entry.name == code) := by
  induction entries generalizing index with
  | nil => rw [List.foldl_nil, List.find?_nil, Option.or_none]
  | cons entry entries ih =>
    rw [List.foldl_cons, ih, Std.TreeMap.getElem?_insertIfNew, List.find?_cons]
    by_cases hcode : entry.name = code
    · subst hcode
      simp only [Std.ReflCmp.compare_self, true_and, beq_self_eq_true]
      cases hfound : index[entry.name]? with
      | none =>
        rw [if_pos (by rw [Std.TreeMap.mem_iff_isSome_getElem?, hfound]; simp)]
        rfl
      | some found =>
        rw [if_neg (by rw [Std.TreeMap.mem_iff_isSome_getElem?, hfound]; simp)]
        rfl
    · rw [if_neg fun h => hcode (Std.LawfulEqCmp.eq_of_compare h.1), beq_eq_false_iff_ne.2 hcode]

/-- Of the entries of a name the first is kept. -/
theorem getElem?_firstEntries (entries : List ClassifierEntry) (code : String) :
    (firstEntries entries)[code]? = entries.find? fun entry => entry.name == code := by
  rw [firstEntries, getElem?_foldl_insertIfNew, Std.TreeMap.getElem?_emptyc, Option.none_or]

/-- The entry of a code is the one of the first record that shows it. -/
theorem getElem?_entries_build (d : Dimension) (index : Nat) (records : List Record)
    (code : String) :
    (LevelIndex.build d index records).entries[code]? =
      if code = "" then none
      else (records.find? fun record => d.textAt index nameAttribute record.contents == code).map
        (d.entryAt index) := by
  rw [LevelIndex.build, getElem?_firstEntries, List.find?_filterMap]
  by_cases hcode : code = ""
  · rw [if_pos hcode, Option.bind_eq_none_iff]
    intro record hrecord
    have hname := List.find?_some hrecord
    rw [entryIn?_eq, hcode] at hname
    split at hname
    · cases hname
    · rename_i hne
      exact absurd (eq_of_beq hname) hne
  · have hsame : ∀ record : Record, (entryIn? d index record).any (fun e => e.name == code) =
        (d.textAt index nameAttribute record.contents == code) := by
      intro record
      rw [entryIn?_eq]
      split
      · rename_i hempty
        rw [hempty, Option.any_none]
        exact (beq_eq_false_iff_ne.2 (Ne.symm hcode)).symm
      · rfl
    simp only [hsame, if_neg hcode]
    cases hfound : records.find? fun record =>
        d.textAt index nameAttribute record.contents == code with
    | none => rfl
    | some record =>
      have hname : d.textAt index nameAttribute record.contents = code := by
        simpa using List.find?_some hfound
      rw [Option.bind_some, Option.map_some, entryIn?_eq, if_neg (hname ▸ hcode)]

/-- Every entry is kept under its own name. -/
theorem name_of_getElem?_entries_build {d : Dimension} {index : Nat} {records : List Record}
    {code : String} {entry : ClassifierEntry}
    (h : (LevelIndex.build d index records).entries[code]? = some entry) : entry.name = code := by
  rw [LevelIndex.build, getElem?_firstEntries] at h
  simpa using List.find?_some h

/-! ## The levels of an index -/

section Levels

variable {schema : Schema} {records : List Record}

theorem getElem?_levelIndexes {taxonomy : Taxonomy}
    (hnodup : (taxonomy.levels.map TaxonomyLevel.level).Nodup) {entry : TaxonomyLevel}
    (hentry : entry ∈ taxonomy.levels) {d : Dimension}
    (hd : schema.dimensions[entry.dimension]? = some d) :
    (levelIndexes schema records taxonomy)[entry.level]? =
      some (.build d entry.dimension records) := by
  refine getElem?_foldl_of_mem hnodup (fun other _ level hne index => ?_) hentry (fun index => ?_) _
  · split
    · rw [Std.TreeMap.getElem?_insert, if_neg fun h => hne (Std.LawfulEqCmp.eq_of_compare h).symm]
    · rfl
  · rw [hd]
    exact Std.TreeMap.getElem?_insert_self

theorem getElem?_build (hnames : (schema.taxonomies.map Taxonomy.name).Nodup) {taxonomy : Taxonomy}
    (htaxonomy : taxonomy ∈ schema.taxonomies) :
    (TaxonomyIndex.build schema records).taxonomies[taxonomy.name]? =
      some (levelIndexes schema records taxonomy) := by
  refine getElem?_foldl_of_mem hnames (fun other _ name hne index => ?_) htaxonomy
    (fun index => ?_) _
  · rw [Std.TreeMap.getElem?_insert, if_neg fun h => hne (Std.LawfulEqCmp.eq_of_compare h).symm]
  · exact Std.TreeMap.getElem?_insert_self

/-- The index of a taxonomy has its levels. -/
theorem keys_levelIndexes {taxonomy : Taxonomy}
    (hascending : taxonomy.levels.Pairwise fun a b => a.level < b.level)
    (hheld : ∀ entry ∈ taxonomy.levels, ∃ d, schema.dimensions[entry.dimension]? = some d) :
    (levelIndexes schema records taxonomy).keys = taxonomy.levels.map TaxonomyLevel.level := by
  have hsorted : (taxonomy.levels.map TaxonomyLevel.level).Pairwise (· < ·) :=
    List.pairwise_map.2 hascending
  have hkeys : (levelIndexes schema records taxonomy).keys.Pairwise (· < ·) :=
    Std.TreeMap.ordered_keys.imp fun h => compare_lt_iff_lt.1 h
  refine List.Perm.eq_of_pairwise (fun a b _ _ hab hba => absurd hab hba.asymm) hkeys hsorted ?_
  refine (List.perm_ext_iff_of_nodup (hkeys.imp Nat.ne_of_lt) (hsorted.imp Nat.ne_of_lt)).2
    fun level => ?_
  rw [Std.TreeMap.mem_keys, Std.TreeMap.mem_iff_isSome_getElem?]
  constructor
  · intro hsome
    by_contra hnot
    rw [levelIndexes, getElem?_foldl_of_forall, Std.TreeMap.getElem?_emptyc] at hsome
    · cases hsome
    · intro entry hentry index
      have hne : entry.level ≠ level := fun h => hnot (h ▸ List.mem_map_of_mem hentry)
      split
      · rw [Std.TreeMap.getElem?_insert, if_neg fun h => hne (Std.LawfulEqCmp.eq_of_compare h)]
      · rfl
  · intro hlevel
    obtain ⟨entry, hentry, rfl⟩ := List.mem_map.1 hlevel
    obtain ⟨d, hd⟩ := hheld entry hentry
    rw [getElem?_levelIndexes (hsorted.imp Nat.ne_of_lt) hentry hd]
    rfl

end Levels

/-! ## What an index shows -/

namespace TaxonomyIndex

/-- Whether a level of an index shows what facts have for a classifier at a position. -/
structure ShowsLevel (index : TaxonomyIndex) (facts : List Record) (taxonomy : String)
    (level : Nat) (d : Dimension) (position : Nat) : Prop where
  lookup_isSome_iff : ∀ code, (index.lookup? taxonomy level code).isSome = true ↔
    code ≠ "" ∧ ∃ fact ∈ facts, d.textAt position nameAttribute fact.contents = code
  /-- The first fact with a code tells its label, its description and its date of change. -/
  lookup_eq : ∀ code entry, index.lookup? taxonomy level code = some entry →
    (facts.find? fun fact => d.textAt position nameAttribute fact.contents == code).map
      (d.entryAt position) = some entry
  mem_members_iff : ∀ entry, entry ∈ index.members taxonomy level ↔
    index.lookup? taxonomy level entry.name = some entry
  ascending : (index.members taxonomy level).Pairwise fun a b => a.name < b.name

/-- A level that is built from facts shows them. -/
theorem showsLevel_of_level? {index : TaxonomyIndex} {facts : List Record} {taxonomy : String}
    {level : Nat} {d : Dimension} {position : Nat}
    (h : index.level? taxonomy level = some (.build d position facts)) :
    index.ShowsLevel facts taxonomy level d position := by
  set built := LevelIndex.build d position facts with hbuilt
  have hlookup : ∀ code, index.lookup? taxonomy level code = built.entries[code]? := by
    intro code
    rw [lookup?, h, Option.bind_some]
  have hmembers : index.members taxonomy level = built.entries.toList.map Prod.snd := by
    rw [members, h]
    exact values_eq_map_toList _
  have hname : ∀ pair ∈ built.entries.toList, pair.2.name = pair.1 := fun pair hpair =>
    name_of_getElem?_entries_build (Std.TreeMap.mem_toList_iff_getElem?_eq_some.1 hpair)
  constructor
  · intro code
    rw [hlookup, getElem?_entries_build]
    split
    · rename_i hempty
      exact iff_of_false Bool.false_ne_true fun h => h.1 hempty
    · rename_i hne
      simp only [Option.isSome_map, List.find?_isSome, beq_iff_eq]
      exact (and_iff_right hne).symm
  · intro code entry hentry
    rw [hlookup, getElem?_entries_build] at hentry
    split at hentry
    · cases hentry
    · exact hentry
  · intro entry
    rw [hmembers, hlookup, List.mem_map]
    constructor
    · rintro ⟨pair, hpair, rfl⟩
      rw [hname pair hpair]
      exact Std.TreeMap.mem_toList_iff_getElem?_eq_some.1 hpair
    · intro hentry
      exact ⟨(entry.name, entry), Std.TreeMap.mem_toList_iff_getElem?_eq_some.2 hentry, rfl⟩
  · rw [hmembers, List.pairwise_map]
    refine Std.TreeMap.ordered_keys_toList.imp_of_mem fun {a b} ha hb hlt => ?_
    rw [hname a ha, hname b hb]
    exact compare_lt_iff_lt.1 hlt

/-- The codes of a level. -/
def codes (index : TaxonomyIndex) (taxonomy : String) (level : Nat) : List String :=
  (index.members taxonomy level).map ClassifierEntry.name

theorem ShowsLevel.mem_codes_iff {index : TaxonomyIndex} {facts : List Record} {taxonomy : String}
    {level : Nat} {d : Dimension} {position : Nat}
    (h : index.ShowsLevel facts taxonomy level d position) {code : String} :
    code ∈ index.codes taxonomy level ↔
      code ≠ "" ∧ ∃ fact ∈ facts, d.textAt position nameAttribute fact.contents = code := by
  rw [← h.lookup_isSome_iff, codes, List.mem_map]
  constructor
  · rintro ⟨entry, hentry, rfl⟩
    rw [(h.mem_members_iff entry).1 hentry]
    rfl
  · intro hsome
    obtain ⟨entry, hentry⟩ := Option.isSome_iff_exists.1 hsome
    have hfirst := h.lookup_eq code entry hentry
    obtain ⟨fact, hfact, rfl⟩ := Option.map_eq_some_iff.1 hfirst
    have hcode : d.textAt position nameAttribute fact.contents = code := by
      simpa using List.find?_some hfact
    refine ⟨d.entryAt position fact, (h.mem_members_iff _).2 ?_, hcode⟩
    rw [show (d.entryAt position fact).name = code from hcode]
    exact hentry

end TaxonomyIndex

/-! ## Codes and listed values -/

/-- Of the values that were read only the empty string shows nothing. -/
theorem Value.isBlank_iff_display {v : Value} {datatype : DataType} (h : v.IsRead datatype) :
    v.isBlank = true ↔ v.display = "" := by
  rw [Value.isBlank_iff]
  constructor
  · rintro rfl
    rfl
  · intro hdisplay
    obtain ⟨s, hs⟩ := h
    have hread := Value.ofText_display hs
    rw [hdisplay] at hread
    cases datatype with
    | string => exact (Except.ok.inj hread).symm
    | _ => cases hread

section Listed

variable {doc : Document} {schema : Schema} {store : Store}

/-- The texts of the listed values of an attribute are those that facts show, but the empty one. -/
theorem mem_display_distinctAt_iff (hvalid : doc.validate = .ok schema)
    (hfacts : ∀ fact ∈ store.toList, schema.IsFact fact) {index position : Nat} {d : Dimension}
    {name : String} (hposition : d.attributeIndex? name = some position) {text : String} :
    text ∈ (store.distinctAt (.component index position)).map Value.display ↔
      text ≠ "" ∧ ∃ fact ∈ store.toList, d.textAt index name fact.contents = text := by
  have hlisting := Store.isListing_distinctAt
    (isColumn_cellsAt hvalid hfacts (.component index position))
  have hread : ∀ fact ∈ store.toList, ∀ v,
      valueAt fact.contents (.component index position) = some v →
        (v.isBlank = true ↔ v.display = "") :=
    fun fact hfact v hv =>
      Value.isBlank_iff_display (Document.isRead_of_valueAt hvalid (hfacts fact hfact) hv)
  simp only [List.mem_map, hlisting.mem_iff, Plan.keyAt, Option.filter_eq_some_iff,
    Dimension.textAt, hposition, Option.bind_some]
  constructor
  · rintro ⟨v, ⟨fact, hfact, hv, hsome⟩, rfl⟩
    have hne : v.display ≠ "" := fun hempty => by
      rw [(hread fact hfact v hv).2 hempty] at hsome
      cases hsome
    exact ⟨hne, fact, hfact, by rw [hv]⟩
  · rintro ⟨hne, fact, hfact, htext⟩
    cases hv : valueAt fact.contents (.component index position) with
    | none =>
      rw [hv] at htext
      exact absurd htext.symm hne
    | some v =>
      rw [hv] at htext
      refine ⟨v, ⟨fact, hfact, hv, ?_⟩, htext⟩
      rw [Bool.not_eq_true', ← Bool.not_eq_true, hread fact hfact v hv]
      have htext : v.display = text := htext
      rwa [htext]

end Listed

/-! ## The index of a store -/

/-- Whether a dimension at a position holds a level of a taxonomy. -/
def Schema.HoldsLevel (schema : Schema) (taxonomy : String) (level : Nat) (d : Dimension)
    (position : Nat) : Prop :=
  schema.dimensions[position]? = some d ∧
    ∃ t ∈ schema.taxonomies, t.name = taxonomy ∧ ⟨level, position⟩ ∈ t.levels

section Build

variable {doc : Document} {schema : Schema}

theorem nodup_levels_of_validate (hvalid : doc.validate = .ok schema) {taxonomy : Taxonomy}
    (htaxonomy : taxonomy ∈ schema.taxonomies) :
    (taxonomy.levels.map TaxonomyLevel.level).Nodup :=
  (List.pairwise_map.2 (Document.isFilled_of_validate hvalid htaxonomy).ascending).imp Nat.ne_of_lt

/-- Each level is built from its own classifier: nothing is overwritten. -/
theorem level?_build (hvalid : doc.validate = .ok schema) {taxonomy : String} {level : Nat}
    {d : Dimension} {position : Nat} (h : schema.HoldsLevel taxonomy level d position)
    (records : List Record) :
    (TaxonomyIndex.build schema records).level? taxonomy level =
      some (.build d position records) := by
  obtain ⟨hd, t, ht, rfl, hentry⟩ := h
  rw [TaxonomyIndex.level?, getElem?_build (Document.nodup_taxonomies_of_validate hvalid) ht,
    Option.bind_some, getElem?_levelIndexes (nodup_levels_of_validate hvalid ht) hentry hd]

theorem levels_build (hvalid : doc.validate = .ok schema) {taxonomy : Taxonomy}
    (htaxonomy : taxonomy ∈ schema.taxonomies) (records : List Record) :
    (TaxonomyIndex.build schema records).levels taxonomy.name =
      taxonomy.levels.map TaxonomyLevel.level := by
  rw [TaxonomyIndex.levels,
    getElem?_build (Document.nodup_taxonomies_of_validate hvalid) htaxonomy]
  refine keys_levelIndexes (Document.isFilled_of_validate hvalid htaxonomy).ascending ?_
  intro entry hentry
  obtain ⟨d, hd, -⟩ := Document.exists_classifier_of_validate hvalid htaxonomy hentry
  exact ⟨d, hd⟩

/-- The classifier of a level has a name. -/
theorem Schema.HoldsLevel.exists_nameIndex (hvalid : doc.validate = .ok schema) {taxonomy : String}
    {level : Nat} {d : Dimension} {position : Nat}
    (h : schema.HoldsLevel taxonomy level d position) :
    ∃ nameIndex, d.attributeIndex? nameAttribute = some nameIndex := by
  obtain ⟨hd, t, ht, -, hentry⟩ := h
  obtain ⟨d', hd', hkind, -⟩ := Document.exists_classifier_of_validate hvalid ht hentry
  obtain rfl := Option.some.inj (hd.symm.trans hd')
  exact Document.exists_nameIndex_of_validate hvalid hd (by rw [hkind]; rfl)

theorem Schema.HoldsLevel.pathOf_name {taxonomy : String} {level : Nat} {d : Dimension}
    {position nameIndex : Nat} (h : schema.HoldsLevel taxonomy level d position)
    (hname : d.attributeIndex? nameAttribute = some nameIndex) :
    schema.pathOf (.component position nameIndex) = d.name ++ "." ++ nameAttribute := by
  obtain ⟨⟨a, ha, haname⟩, -⟩ := Dimension.attributeIndex?_eq_some_iff.1 hname
  simp only [Schema.pathOf, Field.dimension, h.1, Schema.attributeName_eq ha, haname]

/-- A level depends on nothing but the entries of its classifier. -/
theorem LevelIndex.build_congr {d : Dimension} {position : Nat} {records other : List Record}
    (h : other.map (fun record => record.contents[position]?) =
      records.map fun record => record.contents[position]?) :
    LevelIndex.build d position other = LevelIndex.build d position records := by
  have hentries : other.filterMap (entryIn? d position) =
      records.filterMap (entryIn? d position) := by
    induction records generalizing other with
    | nil => rw [List.map_eq_nil_iff.1 h]
    | cons record records ih =>
      obtain ⟨first, rest, rfl, hfirst, hrest⟩ := List.map_eq_cons_iff.1 h
      have hsame : entryIn? d position first = entryIn? d position record := by
        rw [entryIn?, entryIn?, hfirst]
      rw [List.filterMap_cons, List.filterMap_cons, hsame, ih hrest]
  rw [LevelIndex.build, LevelIndex.build, hentries]

end Build

/-- Whether an index is that of a store: it has the levels of the schema, each with the codes that
the facts show. -/
structure TaxonomyIndex.IsIndexOf (schema : Schema) (store : Store) (index : TaxonomyIndex) :
    Prop where
  levels_eq : ∀ taxonomy ∈ schema.taxonomies,
    index.levels taxonomy.name = taxonomy.levels.map TaxonomyLevel.level
  held : ∀ taxonomy ∈ schema.taxonomies, ∀ entry ∈ taxonomy.levels,
    ∃ d, schema.HoldsLevel taxonomy.name entry.level d entry.dimension
  shows : ∀ taxonomy level d position, schema.HoldsLevel taxonomy level d position →
    index.ShowsLevel store.toList taxonomy level d position
  /-- A path to the name of the classifier lists the codes; its own path is one, without points. -/
  listed : ∀ taxonomy level d position, schema.HoldsLevel taxonomy level d position →
    ∃ nameIndex, d.attributeIndex? nameAttribute = some nameIndex ∧
      ('.' ∉ d.name.toList → schema.resolve? (d.name ++ "." ++ nameAttribute) =
        some (.component position nameIndex)) ∧
      ∀ path, schema.resolve? path = some (.component position nameIndex) →
        ∃ values, store.distinct schema path = .ok values ∧
          ∀ code, code ∈ index.codes taxonomy level ↔ code ∈ values.map Value.display
  /-- With other entries for other dimensions the level would be the same. -/
  independent : ∀ taxonomy level d position, schema.HoldsLevel taxonomy level d position →
    ∀ other : List Record,
      (other.map fun fact => fact.contents[position]?) =
        (store.toList.map fun fact => fact.contents[position]?) →
      (TaxonomyIndex.build schema other).level? taxonomy level = index.level? taxonomy level

/-- The index that is built from the facts of a store is that of the store. -/
theorem TaxonomyIndex.isIndexOf_build {doc : Document} {schema : Schema}
    (hvalid : doc.validate = .ok schema) {store : Store}
    (hfacts : ∀ record ∈ store.toList, schema.IsFact record) :
    (TaxonomyIndex.build schema store.toList).IsIndexOf schema store where
  levels_eq := fun _ htaxonomy => levels_build hvalid htaxonomy _
  held := fun taxonomy htaxonomy entry hentry => by
    obtain ⟨d, hd, -⟩ := Document.exists_classifier_of_validate hvalid htaxonomy hentry
    exact ⟨d, hd, taxonomy, htaxonomy, rfl, hentry⟩
  shows := fun _ _ _ _ h => showsLevel_of_level? (level?_build hvalid h _)
  listed := fun taxonomy level d position h => by
    obtain ⟨nameIndex, hname⟩ := h.exists_nameIndex hvalid
    refine ⟨nameIndex, hname, fun hpoint => ?_, fun path hpath => ?_⟩
    · rw [← h.pathOf_name hname]
      exact Schema.resolve?_pathOf_component (Document.wellFormed_of_validate hvalid).names_nodup
        h.1 hpoint hname
    · refine ⟨store.distinctAt (.component position nameIndex), ?_, fun code => ?_⟩
      · rw [Store.distinct, Query.resolve, hpath]
        rfl
      · rw [(showsLevel_of_level? (level?_build hvalid h _)).mem_codes_iff,
          mem_display_distinctAt_iff hvalid hfacts hname]
  independent := fun taxonomy level d position h other hother => by
    rw [level?_build hvalid h, level?_build hvalid h, LevelIndex.build_congr hother]

namespace Sample

/-- A store with two facts for the same ward. -/
def placesStore : Store :=
  ((loadRows placesSchema .strict 1
    [Row.ofList [("ward", "W2"), ("quarter", "Q1"), ("county", "Kent"), ("parish", "")],
     Row.ofList [("ward", "W1"), ("quarter", ""), ("county", "Kent"), ("parish", "P1")],
     Row.ofList [("ward", "W2"), ("quarter", "Q1"), ("county", "Kent"), ("parish", "P1")]]).run
    .empty).2

theorem isFact_placesStore : ∀ record ∈ placesStore.toList, placesSchema.IsFact record :=
  Store.Built.isFact (.load .strict 1 _ .empty)

end Sample

theorem TaxonomyIndex.isIndexOf_build_sample :
    Sample.placesDocument.validate = .ok Sample.placesSchema ∧
      (∀ record ∈ Sample.placesStore.toList, Sample.placesSchema.IsFact record) ∧
      (TaxonomyIndex.build Sample.placesSchema Sample.placesStore.toList).IsIndexOf
        Sample.placesSchema Sample.placesStore :=
  ⟨Sample.validate_places, Sample.isFact_placesStore,
    TaxonomyIndex.isIndexOf_build Sample.validate_places Sample.isFact_placesStore⟩

/-! ## Paths that lead elsewhere -/

namespace Sample

/-- A document with a classifier whose name has a point. The path of its name is also that of an
attribute of an entity, which has a default. -/
def pointDocument : Document where
  dataset := ⟨"places", "", "", "GBP"⟩
  mapping := [("a.b.name", "code"), ("a.name", "holder")]
  dimensions :=
    [("a.b", classifierSpec none none),
     ("a", ⟨"entity", "", "", none,
       [("name", ⟨"string", none⟩), ("b.name", ⟨"string", some (.text "none")⟩)],
       none, false, false, none, none, none⟩)]
  views := []

/-- The entity of the document. -/
def pointEntity : Dimension :=
  ⟨"a", .entity, "", "", false, false, none, none, none,
    .compound [⟨"name", .string, none⟩, ⟨"b.name", .string, some (.string "none")⟩]⟩

/-- The schema of the document. -/
def pointSchema : Schema where
  dataset := ⟨"places", "", "", "GBP"⟩
  dimensions := [classifier "a.b" "a.b" 1, pointEntity]
  fields :=
    [⟨"a.b.name", "code", .component 0 0, .string, none, true⟩,
     ⟨"a.name", "holder", .component 1 0, .string, none, true⟩,
     ⟨"a.b.name", "code", .component 1 1, .string, some (.string "none"), true⟩]
  taxonomies := [⟨"a.b", [⟨1, 0⟩]⟩]
  views := []

theorem validate_point : pointDocument.validate = .ok pointSchema := by
  cbv

/-- A fact without a code. -/
def pointFact : Record :=
  .ofContents pointSchema [.compound [.string ""], .compound [.string "x", .string "none"]]

theorem isFact_pointFact : pointSchema.IsFact pointFact :=
  have hfilled : fillSlots (Row.ofList [("code", ""), ("holder", "x")])
      (emptyContents pointSchema) pointSchema.fields =
        .ok [.compound [.string ""], .compound [.string "x", .string "none"]] := by cbv
  ⟨_, _, congrArg (Except.map (Record.ofContents pointSchema)) hfilled, rfl⟩

/-- A store with this fact. -/
def pointStore : Store := (Store.empty.upsert pointFact).2

theorem toList_pointStore : pointStore.toList = [pointFact] := by
  simp [pointStore, Store.upsert, Store.empty, Store.toList]

theorem isFact_pointStore : ∀ record ∈ pointStore.toList, pointSchema.IsFact record := by
  rw [toList_pointStore]
  exact List.forall_mem_singleton.2 isFact_pointFact

end Sample

/-- The path of a classifier's name can lead to another attribute, whose values are no codes. -/
theorem not_forall_codes_eq_distinct :
    ¬ ∀ (doc : Document) (schema : Schema) (store : Store), doc.validate = .ok schema →
      (∀ record ∈ store.toList, schema.IsFact record) →
      ∀ taxonomy level d position, schema.HoldsLevel taxonomy level d position →
      ∀ values, store.distinct schema (d.name ++ "." ++ nameAttribute) = .ok values →
      ∀ code, code ∈ (TaxonomyIndex.build schema store.toList).codes taxonomy level ↔
        code ∈ values.map Value.display := by
  intro h
  have hlevel : Sample.pointSchema.HoldsLevel "a.b" 1 (Sample.classifier "a.b" "a.b" 1) 0 :=
    ⟨rfl, _, List.mem_singleton_self _, rfl, List.mem_singleton_self _⟩
  have hdistinct : Sample.pointStore.distinct Sample.pointSchema ("a.b" ++ "." ++ nameAttribute) =
      .ok (Sample.pointStore.distinctAt (.component 1 1)) := rfl
  have hsame := h _ _ _ Sample.validate_point Sample.isFact_pointStore _ _ _ _ hlevel _ hdistinct
    "none"
  rw [(TaxonomyIndex.showsLevel_of_level?
      (level?_build Sample.validate_point hlevel _)).mem_codes_iff,
    @mem_display_distinctAt_iff _ _ _ Sample.validate_point Sample.isFact_pointStore 1 1
      Sample.pointEntity "b.name" rfl, Sample.toList_pointStore] at hsame
  obtain ⟨-, fact, hfact, hcode⟩ := hsame.2 ⟨by decide, _, List.mem_singleton_self _, rfl⟩
  obtain rfl := List.mem_singleton.1 hfact
  have hempty : "" = "none" := hcode
  exact absurd hempty (by decide)

end FactCube
