import FactCube.Proofs.Levels

/-!
# The taxonomies of a document

Every classifier of a document has one place in the taxonomies of its schema: on one level of the
taxonomy it names, or of one of its own. The places of all classifiers are compared with the
declarations at once, as lists up to order, so that nothing is left out, added or repeated.

Results:
* `Schema.HasTaxonomiesOf`: the taxonomies that a document asks for.
* `hasTaxonomiesOf_of_validate`: validation builds these.
-/

namespace FactCube

/-! ## Places in taxonomies -/

/-- The taxonomy that a classifier of a name asks for; other dimensions have none. -/
def DimensionSpec.taxonomyFor? (spec : DimensionSpec) (name : String) : Option String :=
  if DimensionKind.ofName? spec.kind = some .classifier then some (spec.taxonomy?.getD name)
  else none

/-- The positions of the classifiers of a document, each with its taxonomy. -/
def Document.classifiers (doc : Document) : List (String × Nat) :=
  doc.dimensions.zipIdx.filterMap fun (entry, index) =>
    (entry.2.taxonomyFor? entry.1).map fun taxonomy => (taxonomy, index)

/-- The positions of the dimensions in the taxonomies of a schema, one for each level. -/
def Schema.places (schema : Schema) : List (String × Nat) :=
  schema.taxonomies.flatMap fun taxonomy =>
    taxonomy.levels.map fun entry => (taxonomy.name, entry.dimension)

/-- Whether the taxonomies of a schema are those that a document asks for: its classifiers have one
place each, in their own taxonomy, on the declared level or on one that fills a gap, and know their
level. -/
structure Schema.HasTaxonomiesOf (schema : Schema) (doc : Document) : Prop where
  dimensions : List.Forall₂
    (fun entry d => d.name = entry.1 ∧ DimensionKind.ofName? entry.2.kind = some d.kind)
    doc.dimensions schema.dimensions
  names_nodup : (schema.taxonomies.map Taxonomy.name).Nodup
  -- up to order only: a place more, a place less or a place twice would show
  places : schema.places.Perm doc.classifiers
  levels : ∀ taxonomy ∈ schema.taxonomies, taxonomy.IsFilled doc.levelAt?
  written_back : ∀ taxonomy ∈ schema.taxonomies, ∀ entry ∈ taxonomy.levels,
    ∃ d, schema.dimensions[entry.dimension]? = some d ∧ d.level? = some entry.level

namespace Document

variable {doc : Document} {schema : Schema}

theorem mem_classifiers {place : String × Nat} :
    place ∈ doc.classifiers ↔ ∃ entry, doc.dimensions[place.2]? = some entry ∧
      entry.2.taxonomyFor? entry.1 = some place.1 := by
  obtain ⟨taxonomy, index⟩ := place
  simp only [classifiers, List.mem_filterMap, Prod.exists, List.mem_zipIdx_iff_getElem?,
    Option.map_eq_some_iff, Prod.mk.injEq]
  constructor
  · rintro ⟨name, spec, _, hentry, _, htaxonomy, rfl, rfl⟩
    exact ⟨name, spec, hentry, htaxonomy⟩
  · rintro ⟨name, spec, hentry, htaxonomy⟩
    exact ⟨name, spec, index, hentry, taxonomy, htaxonomy, rfl, rfl⟩

theorem nodup_classifiers (doc : Document) : doc.classifiers.Nodup := by
  have hpositions : doc.dimensions.zipIdx.Pairwise fun a b => a.2 ≠ b.2 := by
    rw [← List.pairwise_map, List.zipIdx_map_snd]
    exact List.nodup_range'
  rw [List.Nodup, classifiers, List.pairwise_filterMap]
  refine hpositions.imp fun {a b} hne place hplace other hother heq => hne ?_
  obtain ⟨_, -, rfl⟩ := Option.map_eq_some_iff.1 hplace
  obtain ⟨_, -, rfl⟩ := Option.map_eq_some_iff.1 hother
  exact (Prod.mk.inj heq).2

theorem mem_places {place : String × Nat} :
    place ∈ schema.places ↔ ∃ taxonomy ∈ schema.taxonomies, taxonomy.name = place.1 ∧
      ∃ entry ∈ taxonomy.levels, entry.dimension = place.2 := by
  obtain ⟨name, index⟩ := place
  simp only [Schema.places, List.mem_flatMap, List.mem_map, Prod.mk.injEq]
  constructor
  · rintro ⟨taxonomy, htaxonomy, entry, hentry, hname, hindex⟩
    exact ⟨taxonomy, htaxonomy, hname, entry, hentry, hindex⟩
  · rintro ⟨taxonomy, htaxonomy, hname, entry, hentry, hindex⟩
    exact ⟨taxonomy, htaxonomy, entry, hentry, hname, hindex⟩

/-- Every classifier has one place, in its own taxonomy, and nothing else has a place. -/
theorem places_of_validate (h : doc.validate = .ok schema) :
    schema.places.Perm doc.classifiers := by
  obtain ⟨htaxonomies, -, -⟩ := taxonomies_of_validate h
  have hall := forall₂_isDeclared_of_validate h
  have hnodup : schema.places.Nodup := by
    refine List.Nodup.of_map Prod.snd ?_
    rw [Schema.places, List.map_flatMap, htaxonomies]
    have hentries := Validation.nodup_entries
      (Validation.checkDimensions [] doc.dimensions).dimensions
    rw [List.map_flatMap] at hentries
    simp only [List.map_map]
    exact hentries
  refine (List.perm_ext_iff_of_nodup hnodup (nodup_classifiers doc)).2 fun place => ?_
  rw [mem_places, mem_classifiers, htaxonomies]
  constructor
  · rintro ⟨taxonomy, htaxonomy, hname, hentry⟩
    obtain ⟨d, hd, hkind, hd'⟩ := (Validation.exists_entry_iff htaxonomy).1 hentry
    obtain ⟨entry, hentry, hdeclared⟩ := Validation.exists_getElem?_of_forall₂ hall hd
    refine ⟨entry, hentry, ?_⟩
    rw [DimensionSpec.taxonomyFor?, hdeclared.kind, hkind, if_pos rfl, ← hname, ← hd',
      hdeclared.taxonomy_eq hkind]
  · rintro ⟨entry, hentry, hname⟩
    obtain ⟨d, hd, hdeclared⟩ : ∃ d, _ ∧ Validation.IsDeclared entry d :=
      Validation.exists_getElem?_of_forall₂ hall.flip hentry
    rw [DimensionSpec.taxonomyFor?, hdeclared.kind] at hname
    split at hname
    · rename_i hkind
      have hkind : d.kind = .classifier := Option.some.inj hkind
      have htaxonomy := (hdeclared.taxonomy_eq hkind).trans hname
      have hmem : place.1 ∈ (Validation.taxonomies
          (Validation.checkDimensions [] doc.dimensions).dimensions).map Taxonomy.name := by
        rw [Validation.map_name_taxonomies]
        exact Validation.mem_taxonomyNames (List.mem_of_getElem? hd) hkind htaxonomy
          List.not_mem_nil
      obtain ⟨taxonomy, hmem, heq⟩ := List.mem_map.1 hmem
      exact ⟨taxonomy, hmem, heq, (Validation.exists_entry_iff hmem).2
        ⟨d, hd, hkind, heq ▸ htaxonomy⟩⟩
    · cases hname

end Document

/-! ## The taxonomies of an accepted document -/

/-- Validation gives every classifier one place: in the taxonomy it names or in its own, on the
level it declares or else on the least one that is neither declared there nor given to a classifier
before it. -/
theorem hasTaxonomiesOf_of_validate {doc : Document} {schema : Schema}
    (h : doc.validate = .ok schema) : schema.HasTaxonomiesOf doc where
  dimensions := (Document.represents_of_validate h).dimensions.imp fun _ _ hentry =>
    ⟨hentry.1.name_eq, hentry.2⟩
  names_nodup := Document.nodup_taxonomies_of_validate h
  places := Document.places_of_validate h
  levels := fun _ htaxonomy => Document.isFilled_of_validate h htaxonomy
  written_back := fun _ htaxonomy _ hentry => by
    obtain ⟨d, hd, -, -, hlevel⟩ := Document.exists_classifier_of_validate h htaxonomy hentry
    exact ⟨d, hd, hlevel⟩

namespace Sample

/-- A classifier with a name. -/
def classifierSpec (taxonomy? : Option String) (level? : Option Literal) : DimensionSpec :=
  ⟨"classifier", "", "", none, [("name", ⟨"string", none⟩)], none, false, false, taxonomy?, level?,
    none⟩

/-- A document with the classifiers of two taxonomies in turn. Only the county declares a level. -/
def placesDocument : Document where
  dataset := ⟨"places", "", "", "GBP"⟩
  mapping :=
    [("ward.name", "ward"), ("quarter.name", "quarter"), ("county.name", "county"),
     ("parish.name", "parish")]
  dimensions :=
    [("ward", classifierSpec (some "place") none),
     ("quarter", classifierSpec none none),
     ("county", classifierSpec (some "place") (some (.integer 2))),
     ("parish", classifierSpec (some "place") none)]
  views := []

/-- A classifier on a level. -/
def classifier (name taxonomy : String) (level : Nat) : Dimension :=
  ⟨name, .classifier, "", "", false, false, some taxonomy, some level, none,
    .compound [⟨"name", .string, none⟩]⟩

/-- The schema of the document. -/
def placesSchema : Schema where
  dataset := ⟨"places", "", "", "GBP"⟩
  dimensions :=
    [classifier "ward" "place" 1, classifier "quarter" "quarter" 1, classifier "county" "place" 2,
     classifier "parish" "place" 3]
  fields :=
    [⟨"ward.name", "ward", .component 0 0, .string, none, true⟩,
     ⟨"quarter.name", "quarter", .component 1 0, .string, none, true⟩,
     ⟨"county.name", "county", .component 2 0, .string, none, true⟩,
     ⟨"parish.name", "parish", .component 3 0, .string, none, true⟩]
  taxonomies := [⟨"place", [⟨1, 0⟩, ⟨2, 2⟩, ⟨3, 3⟩]⟩, ⟨"quarter", [⟨1, 1⟩]⟩]
  views := []

theorem validate_places : placesDocument.validate = .ok placesSchema := by
  cbv

end Sample

theorem hasTaxonomiesOf_of_validate_sample :
    Sample.placesDocument.validate = .ok Sample.placesSchema ∧
      Sample.placesSchema.HasTaxonomiesOf Sample.placesDocument :=
  ⟨Sample.validate_places, hasTaxonomiesOf_of_validate Sample.validate_places⟩

end FactCube
