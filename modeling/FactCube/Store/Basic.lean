import FactCube.Fact.Record
import Std.Data.TreeMap
import Std.Data.TreeSet

/-!
# Fact stores

A store holds records in the order in which their ids first came, with an index of the ids, and
named collections of ids. Upserting a record whose id is there replaces that record in its place.
-/

namespace FactCube

/-- A store of facts. -/
structure Store where
  records : Array Record
  positions : Std.HashMap String Nat
  collections : Std.TreeMap String (Std.TreeSet String)

namespace Store

/-! ## Records -/

/-- The store without records and collections. -/
def empty : Store := ⟨#[], ∅, ∅⟩

/-- The count of records. -/
def size (store : Store) : Nat := store.records.size

/-- The records in the order of their first insertion. -/
def toList (store : Store) : List Record := store.records.toList

/-- The record of an id. -/
def get? (store : Store) (id : String) : Option Record :=
  match store.positions[id]? with
  | some position => store.records[position]?
  | none => none

/-- Inserts a record, or replaces the one with its id; says whether one was replaced. -/
def upsert (store : Store) (record : Record) : Bool × Store :=
  match store.positions[record.id]? with
  | some position => (true, { store with records := store.records.setIfInBounds position record })
  | none =>
    -- The size is read before the array grows, so that the array can grow in place.
    let positions := store.positions.insert record.id store.records.size
    (false, { store with records := store.records.push record, positions := positions })

/-- Inserts records one after the other. -/
def extend (store : Store) (records : List Record) : Store :=
  records.foldl (fun store record => (store.upsert record).2) store

/-- The store without its records and collections. -/
def clear (_store : Store) : Store := empty

/-! ## Collections -/

/-- The ids in a collection. -/
def collection? (store : Store) (name : String) : Option (Std.TreeSet String) :=
  store.collections[name]?

/-- Adds an id to a collection, which is created if need be; says whether the id was new. -/
def addTo (store : Store) (name id : String) : Bool × Store :=
  let members := (store.collection? name).getD ∅
  (!members.contains id,
   { store with collections := store.collections.insert name (members.insert id) })

/-- Adds ids to a collection and counts the new ones. -/
def addAll (store : Store) (name : String) (ids : List String) : Nat × Store :=
  ids.foldl
    (fun (added, store) id =>
      let (isNew, store) := store.addTo name id
      (if isNew then added + 1 else added, store))
    (0, store)

/-- Removes an id from a collection; says whether it was there. -/
def removeFrom (store : Store) (name id : String) : Bool × Store :=
  match store.collection? name with
  | none => (false, store)
  | some members =>
    (members.contains id,
     { store with collections := store.collections.insert name (members.erase id) })

end Store

end FactCube
