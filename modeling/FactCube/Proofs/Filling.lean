import FactCube.Fact.Mapping
import FactCube.Proofs.Outcome
import FactCube.Proofs.Slots

/-!
# Filling slots

To fill slots is to read their values one after the other, stopping at the first fault, and then to
put the values into the entries. Putting them looks at the dimensions of the fields only, and not at
the positions of attributes. Since the fields of a validated schema run through the slots of its
dimensions in order, every value still comes to its own place: each dimension holds the values of
its slots, one behind the other.

Results:
* `fillSlots_eq`: filling is reading all values and then putting them in.
* `holds_of_placeAll`: values put in along the slots of some dimensions come to their places.
* `holds_of_mapRow`: a mapped row holds the values of its slots.
-/

namespace FactCube

open Validation (Slot slotsOf slotsFrom)

/-! ## Reading and putting -/

/-- Puts values into the entries of their fields, one after the other. -/
def placeAll (contents : Contents) (placed : List (MappedField × Value)) : Contents :=
  placed.foldl
    (fun contents p => contents.modify p.1.target.dimension (Entry.fill p.2)) contents

/-- Filling is reading all values and then putting them in. -/
theorem fillSlots_eq (row : Row) (contents : Contents) (fields : List MappedField) :
    fillSlots row contents fields =
      (fields.mapM (slotValue row)).map fun values => placeAll contents (fields.zip values) := by
  induction fields generalizing contents with
  | nil => rfl
  | cons field fields ih =>
    rw [fillSlots, Outcome.mapM_cons]
    cases slotValue row field with
    | error fault => rfl
    | ok value =>
      show fillSlots row _ fields = ((fields.mapM (slotValue row)).map _).map _
      rw [ih, Outcome.map_map]
      rfl

theorem placeAll_append (contents : Contents) (placed more : List (MappedField × Value)) :
    placeAll contents (placed ++ more) = placeAll (placeAll contents placed) more :=
  List.foldl_append

theorem modify_append_cons (pre : List Entry) (entry : Entry) (post : List Entry)
    (f : Entry → Entry) :
    (pre ++ entry :: post).modify pre.length f = pre ++ f entry :: post := by
  induction pre with
  | nil => rfl
  | cons first pre ih =>
    rw [List.cons_append, List.length_cons, List.modify_succ_cons, ih, List.cons_append]

/-! ## Entries that hold values -/

/-- Whether an entry holds a value for each attribute. -/
def Entry.isCompound : Entry → Bool
  | .scalar _ => false
  | .compound _ => true

/-- The values of an entry, in order. -/
def Entry.values : Entry → List Value
  | .scalar value => [value]
  | .compound values => values

/-- Whether an entry has the shape of a dimension and, for each of its slots, a value as asked. -/
structure Entry.Holds (R : Slot → Value → Prop) (index : Nat) (d : Dimension) (entry : Entry) :
    Prop where
  shape : entry.isCompound = d.isCompound
  values : List.Forall₂ R (slotsOf index d) entry.values

/-- The entry of a dimension before any slot is filled. -/
def blankEntry (d : Dimension) : Entry :=
  if d.isCompound then .compound [] else .scalar (.string "")

theorem dimension_of_mem_slotsOf {index : Nat} {d : Dimension} {slot : Slot}
    (h : slot ∈ slotsOf index d) : slot.target.dimension = index := by
  rw [slotsOf] at h
  split at h
  · rw [List.mem_singleton] at h
    rw [h]
    rfl
  · obtain ⟨a, -, rfl⟩ := List.mem_map.1 h
    rfl

/-- Values for a compound entry come one behind the other. -/
theorem placeAll_compound {pre post : List Entry} {placed : List (MappedField × Value)}
    (values : List Value) (h : ∀ p ∈ placed, p.1.target.dimension = pre.length) :
    placeAll (pre ++ .compound values :: post) placed =
      pre ++ .compound (values ++ placed.map Prod.snd) :: post := by
  induction placed generalizing values with
  | nil => rw [List.map_nil, List.append_nil]; rfl
  | cons p placed ih =>
    rw [List.forall_mem_cons] at h
    show placeAll (List.modify _ _ _) placed = _
    rw [h.1, modify_append_cons, Entry.fill, ih _ h.2, List.map_cons, List.append_assoc,
      List.singleton_append]

/-- The values for the slots of one dimension make up its entry. -/
theorem placeAll_dimension {R : Slot → Value → Prop} {pre : List Entry} (post : List Entry)
    {d : Dimension} {placed : List (MappedField × Value)}
    (hslots : placed.map (fun p => p.1.slot) = slotsOf pre.length d)
    (hR : ∀ p ∈ placed, R p.1.slot p.2) :
    ∃ entry, placeAll (pre ++ blankEntry d :: post) placed = pre ++ entry :: post ∧
      entry.Holds R pre.length d := by
  have hvalues : List.Forall₂ R (slotsOf pre.length d) (placed.map Prod.snd) := by
    rw [← hslots, List.forall₂_map_left_iff, List.forall₂_map_right_iff, List.forall₂_same]
    exact hR
  have htargets : ∀ p ∈ placed, p.1.target.dimension = pre.length := by
    intro p hp
    have hmem : p.1.slot ∈ slotsOf pre.length d := by
      rw [← hslots]
      exact List.mem_map_of_mem hp
    exact dimension_of_mem_slotsOf hmem
  cases hcontent : d.content with
  | scalar datatype default? =>
    have hcompound : d.isCompound = false := by rw [Dimension.isCompound, hcontent]
    have hone :
        slotsOf pre.length d = [⟨d.name, .scalar pre.length, datatype, default?, false⟩] := by
      rw [slotsOf, hcontent]
    rw [hone, List.map_eq_singleton_iff] at hslots
    obtain ⟨⟨field, value⟩, rfl, -⟩ := hslots
    refine ⟨.scalar value, ?_, hcompound.symm, hvalues⟩
    have htarget : field.target.dimension = pre.length := htargets _ List.mem_cons_self
    show List.modify _ field.target.dimension _ = _
    rw [htarget, modify_append_cons, blankEntry, hcompound]
    rfl
  | compound attributes =>
    have hcompound : d.isCompound = true := by rw [Dimension.isCompound, hcontent]
    refine ⟨.compound (placed.map Prod.snd), ?_, hcompound.symm, hvalues⟩
    rw [blankEntry, hcompound, if_pos rfl, placeAll_compound [] htargets, List.nil_append]

/-- Whether entries hold values for the slots of dimensions whose positions start at `start`. -/
def HoldsFrom (R : Slot → Value → Prop) (start : Nat) (dimensions : List Dimension)
    (entries : List Entry) : Prop :=
  List.Forall₂ (fun (numbered : Dimension × Nat) entry => entry.Holds R numbered.2 numbered.1)
    (dimensions.zipIdx start) entries

/-- Values put in along the slots of some dimensions come to their places. -/
theorem holds_of_placeAll {R : Slot → Value → Prop} (dimensions : List Dimension)
    (pre : List Entry) (placed : List (MappedField × Value))
    (hslots : placed.map (fun p => p.1.slot) = slotsFrom pre.length dimensions)
    (hR : ∀ p ∈ placed, R p.1.slot p.2) :
    ∃ entries, placeAll (pre ++ dimensions.map blankEntry) placed = pre ++ entries ∧
      HoldsFrom R pre.length dimensions entries := by
  induction dimensions generalizing pre placed with
  | nil =>
    rw [Validation.slotsFrom_nil, List.map_eq_nil_iff] at hslots
    subst hslots
    exact ⟨[], rfl, .nil⟩
  | cons d dimensions ih =>
    -- The slots of `d` come first, and the rest starts where they end.
    rw [Validation.slotsFrom_cons, List.map_eq_append_iff] at hslots
    obtain ⟨first, rest, rfl, hfirst, hrest⟩ := hslots
    rw [List.forall_mem_append] at hR
    obtain ⟨entry, hplaced, hentry⟩ :=
      placeAll_dimension (dimensions.map blankEntry) hfirst hR.1
    rw [← show (pre ++ [entry]).length = pre.length + 1 by simp] at hrest
    obtain ⟨entries, hentries, hholds⟩ := ih _ _ hrest hR.2
    refine ⟨entry :: entries, ?_, ?_⟩
    · rw [List.map_cons, placeAll_append, hplaced, List.append_cons, hentries, ← List.append_cons]
    · rw [List.length_append, List.length_singleton] at hholds
      exact .cons hentry hholds

/-! ## Mapped rows -/

theorem mapRow_eq (schema : Schema) (row : Row) :
    mapRow schema row = (schema.fields.mapM (slotValue row)).map fun values =>
      Record.ofContents schema (placeAll (emptyContents schema) (schema.fields.zip values)) := by
  rw [mapRow, fillSlots_eq, Outcome.map_map]
  rfl

/-- A mapped row holds the values of its slots. -/
theorem holds_of_mapRow {schema : Schema} (hschema : schema.WellFormed) {row : Row}
    {record : Record} (h : mapRow schema row = .ok record) {R : Slot → Value → Prop}
    (hR : ∀ field ∈ schema.fields, ∀ value, slotValue row field = .ok value → R field.slot value) :
    HoldsFrom R 0 schema.dimensions record.contents := by
  rw [mapRow_eq, Outcome.map_eq_ok_iff] at h
  obtain ⟨values, hvalues, rfl⟩ := h
  rw [Outcome.mapM_eq_ok_iff] at hvalues
  have hslots : (schema.fields.zip values).map (fun p => p.1.slot) =
      slotsFrom 0 schema.dimensions := by
    show (schema.fields.zip values).map (MappedField.slot ∘ Prod.fst) = _
    rw [← List.map_map, List.map_fst_zip hvalues.length_eq.le]
    exact hschema.fields_slots
  obtain ⟨entries, hentries, hholds⟩ :=
    holds_of_placeAll schema.dimensions [] (schema.fields.zip values) hslots fun p hp =>
      hR p.1 (List.of_mem_zip hp).1 p.2 (List.forall₂_zip hvalues hp)
  show HoldsFrom R 0 schema.dimensions (placeAll (emptyContents schema) _)
  rw [show emptyContents schema = [] ++ schema.dimensions.map blankEntry from rfl, hentries]
  exact hholds

end FactCube
