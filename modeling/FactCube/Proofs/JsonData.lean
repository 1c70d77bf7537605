import FactCube.Json.Typed
import FactCube.Model.Document
import FactCube.Proofs.JsonText

/-!
# Data of a shape that read back

The data that a value is read as depend on the shape asked for and on how deep the value may nest.
`Json.Reads` says that a value gives some data wherever there is room below it; it is shown for
scalars and passed on from the parts of a record, a table or a list to the whole. A record is
written with its members in the order of its fields, and those that may be missing can be left out.

Conversely every literal in data that were read stands in the text as a string, a number or a truth
value. So of all numbers only integers of 64 bits and finite floats come to stand in data.

Results:
* `Json.reads_record`, `Json.reads_keyed`, `Json.reads_listed`: what has parts is read from its
  parts.
* `Json.Reads.readShape`: what a value is read as in place is what its text stands for.
* `Json.isRestored_iff`: when the text of a literal stands for the literal.
* `Json.isPlain_of_holds`: which literals stand in what is read.
-/

namespace FactCube

deriving instance DecidableEq for Literal

namespace Json

/-! ## Scalars -/

/-- A value gives some data of a shape wherever it stands with room for `depth` levels below it. -/
def Reads (depth : Nat) (shape : Shape) (j : Json) (d : Datum) : Prop :=
  ∀ room, depth < room → datum room shape j.node = .ok d

theorem Reads.mono {m n : Nat} {shape : Shape} {j : Json} {d : Datum} (h : Reads m shape j d)
    (hle : m ≤ n) : Reads n shape j d := fun room hroom => h room (by omega)

theorem reads_text (n : Nat) (s : String) : Reads n .text (.string s) (.text s) := by
  intro room _
  rw [node, datum, RawText.text_rawOf]
  rfl

theorem reads_flag (n : Nat) (b : Bool) : Reads n .flag (.boolean b) (.flag b) := by
  intro room _
  rw [node, datum]

/-- The word for nothing is data of no shape. -/
theorem datum_null (room : Nat) (shape : Shape) (d : Datum) : datum room shape .null ≠ .ok d := by
  cases shape <;> exact nofun

theorem Reads.isNull_eq_false {n : Nat} {shape : Shape} {j : Json} {d : Datum}
    (h : Reads n shape j d) : isNull j.node = false := by
  cases hnode : j.node with
  | null =>
    have hread := h (n + 1) (Nat.lt_succ_self n)
    rw [hnode] at hread
    exact absurd hread (datum_null _ _ _)
  | _ => rfl

/-! ## Records -/

/-- Members written in the order of the fields of a record; a field that is not required may be left
out. -/
inductive ReadsFields (n : Nat) :
    List (String × Presence × Shape) → List (String × Json) → List (String × Datum) → Prop
  | nil : ReadsFields n [] [] []
  | omitted {name : String} {presence : Presence} {shape : Shape}
      {fields : List (String × Presence × Shape)} {members : List (String × Json)}
      {written : List (String × Datum)} (hpresence : presence ≠ .required)
      (h : ReadsFields n fields members written) :
      ReadsFields n ((name, presence, shape) :: fields) members written
  | cons {name : String} {presence : Presence} {shape : Shape}
      {fields : List (String × Presence × Shape)} {members : List (String × Json)}
      {written : List (String × Datum)} {j : Json} {d : Datum} (hread : Reads n shape j d)
      (h : ReadsFields n fields members written) :
      ReadsFields n ((name, presence, shape) :: fields) ((name, j) :: members)
        ((name, d) :: written)

variable {n room : Nat} {shape : Shape} {d : Datum} {stop : Option JsonFault}
  {fields all : List (String × Presence × Shape)} {members : List (String × Json)}
  {before written : List (String × Datum)}

/-- A field found in a record, not written before, is added to those written. -/
theorem readFields_cons (hroom : n < room) {name : String} {presence : Presence} {j : Json}
    (hfind : findField fields name = some (presence, shape)) (hread : Reads n shape j d)
    (hnew : ∀ w ∈ written, w.1 ≠ name) (members : List (String × Json)) :
    readFields room fields written (memberNodes ((name, j) :: members)) =
      readFields room fields (written ++ [(name, d)]) (memberNodes members) := by
  have hany : (written.any fun w => w.1 == name) = false := by
    simpa using hnew
  have hnull : (presence == .optional && isNull j.node) = false := by
    rw [hread.isNull_eq_false, Bool.and_false]
  rw [memberNodes, readFields, RawText.text_rawOf]
  simp only [Except.bind, bind, hfind, hany, hnull, hread room hroom]
  rfl

/-- The fields of a record are read in the order they are written in. -/
theorem ReadsFields.readFields_eq (hroom : n < room) (h : ReadsFields n fields members written)
    (hnodup : (fields.map Prod.fst).Nodup)
    (hfind : ∀ f ∈ fields, findField all f.1 = some f.2) (before : List (String × Datum))
    (hbefore : ∀ f ∈ fields, ∀ w ∈ before, w.1 ≠ f.1) :
    readFields room all before (memberNodes members) = .ok (before ++ written) := by
  induction h generalizing before with
  | nil => rw [memberNodes, readFields, List.append_nil]
  | omitted _ _ ih =>
    rw [List.map_cons, List.nodup_cons] at hnodup
    exact ih hnodup.2 (fun f hf => hfind f (List.mem_cons_of_mem _ hf)) before
      fun f hf => hbefore f (List.mem_cons_of_mem _ hf)
  | @cons name presence shape fields members written j d hread _ ih =>
    rw [List.map_cons, List.nodup_cons] at hnodup
    have hsame := hbefore _ List.mem_cons_self
    have hnext : ∀ f ∈ fields, ∀ w ∈ before ++ [(name, d)], w.1 ≠ f.1 := by
      intro f hf w hw
      rcases List.mem_append.1 hw with hw | hw
      · exact hbefore f (List.mem_cons_of_mem _ hf) w hw
      · rw [List.mem_singleton.1 hw]
        exact fun heq => hnodup.1 (List.mem_map.2 ⟨f, hf, heq.symm⟩)
    rw [readFields_cons hroom (hfind _ List.mem_cons_self) hread hsame,
      ih hnodup.2 (fun f hf => hfind f (List.mem_cons_of_mem _ hf)) _ hnext, List.append_assoc]
    rfl

/-- A required field is written. -/
theorem ReadsFields.exists_written (h : ReadsFields n fields members written) :
    ∀ f ∈ fields, f.2.1 = .required → ∃ w ∈ written, w.1 = f.1 := by
  induction h with
  | nil => exact nofun
  | omitted hpresence _ ih =>
    intro f hf hrequired
    rcases List.mem_cons.1 hf with rfl | hf
    · exact absurd hrequired hpresence
    · exact ih f hf hrequired
  | cons _ _ ih =>
    intro f hf hrequired
    rcases List.mem_cons.1 hf with rfl | hf
    · exact ⟨_, List.mem_cons_self, rfl⟩
    · obtain ⟨w, hw, hname⟩ := ih f hf hrequired
      exact ⟨w, List.mem_cons_of_mem _ hw, hname⟩

theorem ReadsFields.hasRequired (h : ReadsFields n fields members written) :
    hasRequired fields written = true := by
  rw [FactCube.hasRequired, List.all_eq_true]
  intro f hf
  by_cases hrequired : f.2.1 = .required
  · obtain ⟨w, hw, hname⟩ := h.exists_written f hf hrequired
    rw [Bool.or_eq_true, List.any_eq_true]
    exact .inr ⟨w, hw, beq_iff_eq.2 hname⟩
  · rw [Bool.or_eq_true, bne_iff_ne]
    exact .inl hrequired

theorem findField_of_mem (hnodup : (fields.map Prod.fst).Nodup) :
    ∀ f ∈ fields, findField fields f.1 = some f.2 := by
  induction fields with
  | nil => exact nofun
  | cons g fields ih =>
    rw [List.map_cons, List.nodup_cons] at hnodup
    intro f hf
    rcases List.mem_cons.1 hf with rfl | hf
    · simp [findField]
    · have hne : g.1 ≠ f.1 := fun heq => hnodup.1 (List.mem_map.2 ⟨f, hf, heq.symm⟩)
      rw [findField, List.find?_cons_of_neg (by simpa using hne)]
      exact ih hnodup.2 f hf

/-- A record is read from its members, written in the order of its fields. -/
theorem reads_record (hnodup : (fields.map Prod.fst).Nodup)
    (h : ReadsFields n fields members written) :
    Reads (n + 1) (.record fields) (.object members) (.record written) := by
  intro room hroom
  have hread := h.readFields_eq (show n < room - 1 by omega) hnodup (findField_of_mem hnodup) []
    (fun _ _ => nofun)
  rw [node, datum, if_neg (by omega), hread]
  simp only [bind, Except.bind, closeRecord, checkStop, List.nil_append, h.hasRequired, if_true]

/-! ## Tables and lists -/

theorem reads_keyed {α : Type} {toJson : α → Json} {toDatum : α → Datum}
    {entries : List (String × α)} (h : ∀ e ∈ entries, Reads n shape (toJson e.2) (toDatum e.2)) :
    Reads (n + 1) (.keyed shape) (.object (entries.map fun e => (e.1, toJson e.2)))
      (.keyed (entries.map fun e => (e.1, toDatum e.2))) := by
  intro room hroom
  have hread : readEntries (room - 1) shape
      (memberNodes (entries.map fun e => (e.1, toJson e.2))) =
        .ok (entries.map fun e => (e.1, toDatum e.2)) := by
    induction entries with
    | nil => rfl
    | cons e entries ih =>
      have he := h e List.mem_cons_self (room - 1) (by omega)
      have hrest := ih fun e he => h e (List.mem_cons_of_mem _ he)
      rw [List.map_cons, memberNodes, readEntries, RawText.text_rawOf]
      simp only [bind, Except.bind, he, hrest, List.map_cons]
  rw [node, datum, if_neg (by omega), hread]
  rfl

theorem reads_listed {α : Type} {toJson : α → Json} {toDatum : α → Datum} {items : List α}
    (h : ∀ i ∈ items, Reads n shape (toJson i) (toDatum i)) :
    Reads (n + 1) (.listed shape) (.array (items.map toJson)) (.listed (items.map toDatum)) := by
  intro room hroom
  have hread : readItemData (room - 1) shape (itemNodes (items.map toJson)) =
      .ok (items.map toDatum) := by
    induction items with
    | nil => rfl
    | cons i items ih =>
      have hi := h i List.mem_cons_self (room - 1) (by omega)
      have hrest := ih fun i hi => h i (List.mem_cons_of_mem _ hi)
      rw [List.map_cons, itemNodes, readItemData]
      simp only [bind, Except.bind, hi, hrest, List.map_cons]
  rw [node, datum, if_neg (by omega), hread]
  rfl

/-! ## Whole texts -/

/-- What a value is read as in place is what its text stands for. -/
theorem Reads.readShape (hn : n < depthLimit) {j : Json} (h : Reads n shape j d) :
    readShape shape (j.compact.toList.map some) = .ok d := by
  rw [Json.readShape, compact, String.toList_ofList, read_compactText]
  simp only [bind, Except.bind, h depthLimit hn]
  rfl

/-! ## Literals -/

/-- The text of a literal stands for the literal. -/
def IsRestored (l : Literal) : Prop :=
  readShape .literal ((Document.literalJson l).compact.toList.map some) = .ok (.literal l)

/-- A literal is read from a string, a number or a truth value. -/
theorem literal_cases {node : Node} {l : Literal} (h : literal room node = .ok l) :
    (∃ raw s, node = .text raw ∧ raw.text = .ok s ∧ l = .text s) ∨
      (∃ n v, node = .number n ∧ n.value = .ok (.integer v) ∧ l = .integer v) ∨
      (∃ n x, node = .number n ∧ n.value = .ok (.float x) ∧ l = .float x) ∨
      ∃ b, node = .boolean b ∧ l = .boolean b := by
  cases node with
  | text raw =>
    obtain ⟨s, hs, rfl⟩ := Outcome.map_eq_ok_iff.1 h
    exact .inl ⟨raw, s, rfl, hs, rfl⟩
  | number n =>
    obtain ⟨v, hv, rfl⟩ := Outcome.map_eq_ok_iff.1 h
    cases v with
    | integer v => exact .inr (.inl ⟨n, v, rfl, hv, rfl⟩)
    | float x => exact .inr (.inr (.inl ⟨n, x, rfl, hv, rfl⟩))
  | boolean b =>
    cases h
    exact .inr (.inr (.inr ⟨b, rfl, rfl⟩))
  | _ =>
    simp only [literal] at h
    split at h <;> cases h

/-- Whether a literal is read does not depend on where it stands. -/
theorem literal_of_literal {node : Node} {l : Literal} (h : literal room node = .ok l)
    (room' : Nat) : literal room' node = .ok l := by
  rcases literal_cases h with ⟨raw, s, rfl, hs, rfl⟩ | ⟨n, v, rfl, hv, rfl⟩ | ⟨n, x, rfl, hx, rfl⟩ |
    ⟨b, rfl, rfl⟩ <;> exact h

theorem isRestored_iff (l : Literal) :
    IsRestored l ↔ literal depthLimit (Document.literalJson l).node = .ok l := by
  rw [IsRestored, readShape, compact, String.toList_ofList, read_compactText]
  simp only [datum]
  constructor
  · intro h
    obtain ⟨d, hd, hclose⟩ := Outcome.bind_eq_ok_iff.1 h
    obtain ⟨l, hl, rfl⟩ := Outcome.map_eq_ok_iff.1 hd
    cases hclose
    exact hl
  · intro h
    rw [h]
    rfl

instance (l : Literal) : Decidable (IsRestored l) := decidable_of_iff _ (isRestored_iff l).symm

theorem reads_literal {l : Literal} (h : IsRestored l) (n : Nat) :
    Reads n .literal (Document.literalJson l) (.literal l) := by
  intro room _
  rw [datum, literal_of_literal ((isRestored_iff l).1 h) room]
  rfl

theorem isRestored_text (s : String) : IsRestored (.text s) := by
  rw [isRestored_iff, Document.literalJson, node, literal, RawText.text_rawOf]
  rfl

theorem isRestored_boolean (b : Bool) : IsRestored (.boolean b) := (isRestored_iff _).2 rfl

theorem isRestored_integer {n : Int} (hlower : Decimal.leastInteger ≤ n)
    (hupper : n ≤ Decimal.greatestInteger) : IsRestored (.integer n) := by
  rw [isRestored_iff, Document.literalJson, node, literal, value_integerNumeral hlower hupper]
  rfl

/-- A float need not be restored: scaling by a power of ten that is itself rounded may miss the
nearest number. -/
example : ¬IsRestored (.float 1e-45) := by decide +kernel

/-! ## What is read -/

/-- An integer of 64 bits, a finite float, or no number. -/
def IsPlain : Literal → Prop
  | .integer n => Decimal.leastInteger ≤ n ∧ n ≤ Decimal.greatestInteger
  | .float x => Binary64.isFinite x = true
  | _ => True

theorem isPlain_of_literal {node : Node} {l : Literal} (h : literal room node = .ok l) :
    IsPlain l := by
  rcases literal_cases h with ⟨_, _, _, _, rfl⟩ | ⟨_, _, _, hv, rfl⟩ | ⟨_, _, _, hx, rfl⟩ |
    ⟨_, _, rfl⟩
  · trivial
  · exact isPlain_of_value hv
  · exact isPlain_of_value hx
  · trivial

/-- Data that are read from some node, or that stand for a field that is written as absent. -/
def IsRead (d : Datum) : Prop := d = .absent ∨ ∃ room shape node, datum room shape node = .ok d

theorem isRead_of_datum {node : Node} (h : datum room shape node = .ok d) : IsRead d :=
  .inr ⟨room, shape, node, h⟩

theorem refuse_ne_ok (node : Node) (d : Datum) : refuse node ≠ .ok d := by
  rw [refuse.eq_def]
  split
  · split <;> exact nofun
  · split <;> exact nofun
  · exact nofun
  · exact nofun

theorem isRead_of_readFields {members : List (RawText × Node)}
    (hbefore : ∀ w ∈ before, IsRead w.2)
    (h : readFields room fields before members = .ok written) : ∀ w ∈ written, IsRead w.2 := by
  induction members generalizing before with
  | nil =>
    rw [readFields] at h
    cases h
    exact hbefore
  | cons member members ih =>
    obtain ⟨key, node⟩ := member
    have hsnoc : ∀ name d, IsRead d → ∀ w ∈ before ++ [(name, d)], IsRead w.2 := by
      intro name d hd
      exact List.forall_mem_append.2 ⟨hbefore, List.forall_mem_singleton.2 hd⟩
    rw [readFields] at h
    obtain ⟨name, -, hfield⟩ := Outcome.bind_eq_ok_iff.1 h
    split at hfield
    · obtain ⟨-, -, hrest⟩ := Outcome.bind_eq_ok_iff.1 hfield
      exact ih hbefore hrest
    · split_ifs at hfield with hany hnull
      · exact ih (hsnoc name _ (.inl rfl)) hfield
      · obtain ⟨d, hd, hrest⟩ := Outcome.bind_eq_ok_iff.1 hfield
        exact ih (hsnoc name d (isRead_of_datum hd)) hrest

theorem isRead_of_readPositions {items : List Node}
    (h : readPositions room stop fields items = .ok written) : ∀ w ∈ written, IsRead w.2 := by
  induction items generalizing fields written with
  | nil =>
    rw [readPositions] at h
    obtain ⟨-, -, hwritten⟩ := Outcome.bind_eq_ok_iff.1 h
    cases hwritten
    exact nofun
  | cons node items ih =>
    cases fields with
    | nil => cases h
    | cons field fields =>
      obtain ⟨name, presence, shape⟩ := field
      have hcons : ∀ value, IsRead value →
          (readPositions room stop fields items >>= fun rest => .ok ((name, value) :: rest)) =
            .ok written → ∀ w ∈ written, IsRead w.2 := by
        intro value hvalue h
        obtain ⟨rest, hrest, hwritten⟩ := Outcome.bind_eq_ok_iff.1 h
        cases hwritten
        exact List.forall_mem_cons.2 ⟨hvalue, ih hrest⟩
      rw [readPositions] at h
      split at h
      · exact hcons _ (.inl rfl) h
      · obtain ⟨value, hvalue, hrest⟩ := Outcome.bind_eq_ok_iff.1 h
        exact hcons value (isRead_of_datum hvalue) hrest

theorem isRead_of_readEntries {entry : Shape} {members : List (RawText × Node)}
    {entries : List (String × Datum)} (h : readEntries room entry members = .ok entries) :
    ∀ e ∈ entries, IsRead e.2 := by
  induction members generalizing entries with
  | nil =>
    cases h
    exact nofun
  | cons member members ih =>
    obtain ⟨key, node⟩ := member
    rw [readEntries] at h
    obtain ⟨name, -, h⟩ := Outcome.bind_eq_ok_iff.1 h
    obtain ⟨d, hd, h⟩ := Outcome.bind_eq_ok_iff.1 h
    obtain ⟨rest, hrest, h⟩ := Outcome.bind_eq_ok_iff.1 h
    cases h
    exact List.forall_mem_cons.2 ⟨isRead_of_datum hd, ih hrest⟩

theorem isRead_of_readItemData {item : Shape} {nodes : List Node} {items : List Datum}
    (h : readItemData room item nodes = .ok items) : ∀ d ∈ items, IsRead d := by
  induction nodes generalizing items with
  | nil =>
    cases h
    exact nofun
  | cons node nodes ih =>
    rw [readItemData] at h
    obtain ⟨d, hd, h⟩ := Outcome.bind_eq_ok_iff.1 h
    obtain ⟨rest, hrest, h⟩ := Outcome.bind_eq_ok_iff.1 h
    cases h
    exact List.forall_mem_cons.2 ⟨isRead_of_datum hd, ih hrest⟩

/-- Data whose parts are read. -/
inductive HasReadParts : Datum → Prop
  | text (s : String) : HasReadParts (.text s)
  | flag (b : Bool) : HasReadParts (.flag b)
  | literal {l : Literal} {room : Nat} {node : Node} (h : literal room node = .ok l) :
      HasReadParts (.literal l)
  | record {fields : List (String × Datum)} (h : ∀ f ∈ fields, IsRead f.2) :
      HasReadParts (.record fields)
  | keyed {entries : List (String × Datum)} (h : ∀ e ∈ entries, IsRead e.2) :
      HasReadParts (.keyed entries)
  | listed {items : List Datum} (h : ∀ d ∈ items, IsRead d) : HasReadParts (.listed items)

/-- The parts of what is read are read. -/
theorem hasReadParts_of_datum {node : Node} (h : datum room shape node = .ok d) :
    HasReadParts d := by
  rw [datum.eq_def] at h
  split at h
  case h_1 =>
    obtain ⟨s, -, rfl⟩ := Outcome.map_eq_ok_iff.1 h
    exact .text s
  case h_2 =>
    cases h
    exact .flag _
  case h_3 =>
    obtain ⟨l, hl, rfl⟩ := Outcome.map_eq_ok_iff.1 h
    exact .literal hl
  case h_4 =>
    split at h
    · cases h
    obtain ⟨written, hwritten, hclose⟩ := Outcome.bind_eq_ok_iff.1 h
    obtain ⟨-, -, hclose⟩ := Outcome.bind_eq_ok_iff.1 hclose
    split_ifs at hclose
    cases hclose
    exact .record (isRead_of_readFields (List.forall_mem_nil _) hwritten)
  case h_5 =>
    split at h
    · cases h
    obtain ⟨written, hwritten, hclose⟩ := Outcome.bind_eq_ok_iff.1 h
    split_ifs at hclose
    cases hclose
    exact .record (isRead_of_readPositions hwritten)
  case h_6 =>
    split at h
    · cases h
    obtain ⟨entries, hentries, hclose⟩ := Outcome.bind_eq_ok_iff.1 h
    obtain ⟨-, -, hclose⟩ := Outcome.bind_eq_ok_iff.1 hclose
    cases hclose
    exact .keyed (isRead_of_readEntries hentries)
  case h_7 =>
    split at h
    · cases h
    obtain ⟨items, hitems, hclose⟩ := Outcome.bind_eq_ok_iff.1 h
    obtain ⟨-, -, hclose⟩ := Outcome.bind_eq_ok_iff.1 hclose
    cases hclose
    exact .listed (isRead_of_readItemData hitems)
  case h_8 => exact absurd h (refuse_ne_ok _ _)

/-- A literal that stands somewhere in some data. -/
inductive Holds (l : Literal) : Datum → Prop
  | literal : Holds l (.literal l)
  | field {fields : List (String × Datum)} {f : String × Datum} (hf : f ∈ fields)
      (h : Holds l f.2) : Holds l (.record fields)
  | entry {entries : List (String × Datum)} {e : String × Datum} (he : e ∈ entries)
      (h : Holds l e.2) : Holds l (.keyed entries)
  | item {items : List Datum} {d : Datum} (hd : d ∈ items) (h : Holds l d) :
      Holds l (.listed items)

/-- Wherever a literal stands in what is read, it is an integer of 64 bits, a finite float or no
number. -/
theorem isPlain_of_holds {l : Literal} (hl : Holds l d) (h : IsRead d) : IsPlain l := by
  have hparts : ∀ {d : Datum}, Holds l d → IsRead d → HasReadParts d := by
    intro d hl h
    rcases h with rfl | ⟨room, shape, node, h⟩
    · cases hl
    · exact hasReadParts_of_datum h
  induction hl with
  | literal =>
    cases hparts .literal h with
    | literal h => exact isPlain_of_literal h
  | field hf hl ih =>
    cases hparts (.field hf hl) h with
    | record h => exact ih (h _ hf)
  | entry he hl ih =>
    cases hparts (.entry he hl) h with
    | keyed h => exact ih (h _ he)
  | item hd hl ih =>
    cases hparts (.item hd hl) h with
    | listed h => exact ih (h _ hd)

end Json

end FactCube
