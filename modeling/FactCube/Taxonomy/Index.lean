import FactCube.Store.Basic

/-!
# Taxonomy indexes

For every level of every taxonomy, the index lists the classifier entries that occur in the facts,
by name. Of several facts with the same name the first one gives the entry. Levels are indexed
apart: nothing ties a name to one on the level above.
-/

namespace FactCube

/-! ## Entries -/

/-- A classifier entry as the facts show it; attributes that are not declared are empty. -/
structure ClassifierEntry where
  name : String
  label : String
  description : String
  changeDate : String
deriving DecidableEq

/-- A level: its dimension, the declared default of its label, and its entries by name. -/
structure LevelIndex where
  dimension : String
  defaultLabel? : Option String
  entries : Std.TreeMap String ClassifierEntry

/-- The levels of each taxonomy. -/
structure TaxonomyIndex where
  taxonomies : Std.TreeMap String (Std.TreeMap Nat LevelIndex)

/-! ## Building -/

/-- The text of the attribute of a name among the values of a compound dimension, empty if there is
none. -/
def attributeText (d : Dimension) (name : String) (values : List Value) : String :=
  match (d.attributeIndex? name).bind fun position => values[position]? with
  | some value => value.display
  | none => ""

/-- The entry in the values of a classifier, if they name one. -/
def entryOf? (d : Dimension) (values : List Value) : Option ClassifierEntry :=
  let name := attributeText d nameAttribute values
  if name.isEmpty then none
  else
    some
      { name := name
        label := attributeText d "label" values
        description := attributeText d "description" values
        changeDate := attributeText d "change_date" values }

/-- The entry a record has for the dimension at a position. -/
def entryIn? (d : Dimension) (index : Nat) (record : Record) : Option ClassifierEntry :=
  match record.contents[index]? with
  | some (.compound values) => entryOf? d values
  | _ => none

/-- The entries by name, the first of each name. -/
def firstEntries (entries : List ClassifierEntry) : Std.TreeMap String ClassifierEntry :=
  entries.foldl (fun index entry => index.insertIfNew entry.name entry) ∅

/-- The index of the dimension at a position. -/
def LevelIndex.build (d : Dimension) (index : Nat) (records : List Record) : LevelIndex :=
  { dimension := d.name
    defaultLabel? := (d.attribute? "label").bind fun a => a.default?.map Value.display
    entries := firstEntries (records.filterMap (entryIn? d index)) }

/-- The levels of a taxonomy. -/
def levelIndexes (schema : Schema) (records : List Record) (taxonomy : Taxonomy) :
    Std.TreeMap Nat LevelIndex :=
  taxonomy.levels.foldl
    (fun levels l =>
      match schema.dimensions[l.dimension]? with
      | some d => levels.insert l.level (.build d l.dimension records)
      | none => levels)
    ∅

/-- The index of all taxonomies of a schema over some records. -/
def TaxonomyIndex.build (schema : Schema) (records : List Record) : TaxonomyIndex :=
  ⟨schema.taxonomies.foldl
    (fun index taxonomy => index.insert taxonomy.name (levelIndexes schema records taxonomy)) ∅⟩

/-! ## Look-ups -/

namespace TaxonomyIndex

/-- The index of a level. -/
def level? (index : TaxonomyIndex) (taxonomy : String) (level : Nat) : Option LevelIndex :=
  index.taxonomies[taxonomy]?.bind fun levels => levels[level]?

/-- The entry of a name. -/
def lookup? (index : TaxonomyIndex) (taxonomy : String) (level : Nat) (name : String) :
    Option ClassifierEntry :=
  (index.level? taxonomy level).bind fun l => l.entries[name]?

/-- The label of a name: the one observed unless it is empty, else the declared default of the
level, else the name. -/
def labelOf (index : TaxonomyIndex) (taxonomy : String) (level : Nat) (name : String) : String :=
  let observed := (index.lookup? taxonomy level name).map ClassifierEntry.label
  match observed.filter fun label => !label.isEmpty with
  | some label => label
  | none => ((index.level? taxonomy level).bind LevelIndex.defaultLabel?).getD name

/-- The names of the taxonomies, ascending. -/
def names (index : TaxonomyIndex) : List String := index.taxonomies.keys

/-- The levels of a taxonomy, ascending. -/
def levels (index : TaxonomyIndex) (taxonomy : String) : List Nat :=
  match index.taxonomies[taxonomy]? with
  | some levels => levels.keys
  | none => []

/-- The dimension that holds a level. -/
def dimensionOf? (index : TaxonomyIndex) (taxonomy : String) (level : Nat) : Option String :=
  (index.level? taxonomy level).map LevelIndex.dimension

/-- The entries of a level, ascending by name. -/
def members (index : TaxonomyIndex) (taxonomy : String) (level : Nat) : List ClassifierEntry :=
  match index.level? taxonomy level with
  | some l => l.entries.values
  | none => []

/-- The names of the entries that have a label, ascending. -/
def namesOfLabel (index : TaxonomyIndex) (taxonomy : String) (level : Nat) (label : String) :
    List String :=
  ((index.members taxonomy level).filter fun e => e.label == label).map ClassifierEntry.name

end TaxonomyIndex

end FactCube
