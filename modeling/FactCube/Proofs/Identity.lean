import FactCube.Proofs.Batches
import FactCube.Proofs.Declarations
import FactCube.Proofs.PlannedFacts

/-!
# What identifies a fact

Where a dataset has keys, the bytes that are hashed for the id of a fact are the name of the dataset
and the texts of its keys, each after a separator. The bytes determine the separated texts. They
determine the texts themselves if there is one key only or no text holds the separator, and in no
other case: nothing tells a separator inside a text from one between two texts, so two keys with the
texts `a␟b` and `c` are written like those with `a` and `b␟c`.

Results:
* `Utf8.encode_injective`: different texts have different bytes.
* `unambiguous_iff`: which texts are determined by their separated form.
* `identity_eq_iff`: the identities of two facts agree iff their separated key texts do.
* `Schema.identifies_of_validate`: ids, unless the hash collides, stand for the separated key texts.
-/

namespace FactCube

/-! ## Bytes of texts -/

namespace Utf8

theorem encodeChar_eq (c : Char) : encodeChar c = String.utf8EncodeChar c := by
  have hlt : c.toNat < 0x110000 := by
    rcases c.valid with h | ⟨-, h⟩
    · exact Nat.lt_trans h (by decide)
    · exact h
  have hval : c.val.toNat = c.toNat := rfl
  simp only [encodeChar, String.utf8EncodeChar, hval, Nat.div_one]
  generalize c.toNat = n at hlt
  have hbyte : ∀ {a b : Nat}, a = b → UInt8.ofNat a = UInt8.ofNat b := congrArg UInt8.ofNat
  by_cases h₁ : n < 0x80
  · rw [if_pos h₁, if_pos (show n ≤ 0x7f by omega)]
  rw [if_neg h₁, if_neg (show ¬n ≤ 0x7f by omega)]
  by_cases h₂ : n < 0x800
  · rw [if_pos h₂, if_pos (show n ≤ 0x7ff by omega),
      hbyte (show 0xC0 + n / 64 = n / 64 % 0x20 + 0xC0 by omega), Nat.add_comm 0x80]
  rw [if_neg h₂, if_neg (show ¬n ≤ 0x7ff by omega)]
  by_cases h₃ : n < 0x10000
  · rw [if_pos h₃, if_pos (show n ≤ 0xffff by omega),
      hbyte (show 0xE0 + n / 4096 = n / 4096 % 0x10 + 0xE0 by omega), Nat.add_comm 0x80,
      Nat.add_comm 0x80]
  · rw [if_neg h₃, if_neg (show ¬n ≤ 0xffff by omega),
      hbyte (show 0xF0 + n / 262144 = n / 262144 % 0x08 + 0xF0 by omega), Nat.add_comm 0x80,
      Nat.add_comm 0x80, Nat.add_comm 0x80]

/-- Different texts have different bytes. -/
theorem encode_injective : Function.Injective encode := by
  intro s t h
  have hbytes : s.utf8Encode = t.utf8Encode := by
    have hchars : encodeChar = String.utf8EncodeChar := funext encodeChar_eq
    rw [encode, encode, hchars] at h
    rw [List.utf8Encode, List.utf8Encode, h]
  exact String.ofList_injective (String.toByteArray_inj.1 hbytes)

theorem encode_append (s t : List Char) : encode (s ++ t) = encode s ++ encode t :=
  List.flatMap_append

theorem encode_cons (c : Char) (s : List Char) : encode (c :: s) = encodeChar c ++ encode s :=
  List.flatMap_cons

end Utf8

/-! ## Collisions -/

/-- Whether the hash has no collision among some messages. -/
def Sha256.IsCollisionFree (messages : List (List UInt8)) : Prop :=
  ∀ a ∈ messages, ∀ b ∈ messages, hex a = hex b → a = b

theorem Sha256.isCollisionFree_pair {a b : List UInt8} (h : hex a ≠ hex b) :
    IsCollisionFree [a, b] := by
  intro m hm n hn heq
  rw [List.mem_pair] at hm hn
  rcases hm with rfl | rfl <;> rcases hn with rfl | rfl
  · rfl
  · exact absurd heq h
  · exact absurd heq.symm h
  · rfl

/-! ## Separated texts -/

/-- The character that comes before each key text. -/
def separator : Char := '\x1F'

/-- Texts one behind the other, each after its separator. -/
def separated (texts : List String) : List Char :=
  texts.flatMap fun text => separator :: text.toList

/-- Whether there is at most one text, or no text holds a separator. -/
def Unambiguous (texts : List String) : Prop :=
  texts.length ≤ 1 ∨ ∀ text ∈ texts, separator ∉ text.toList

theorem separated_cons (text : String) (texts : List String) :
    separated (text :: texts) = separator :: (text.toList ++ separated texts) := rfl

theorem separated_append (texts more : List String) :
    separated (texts ++ more) = separated texts ++ separated more := List.flatMap_append

/-- Separators come before the texts and in them. -/
theorem count_separated (texts : List String) :
    (separated texts).count separator =
      texts.length + (texts.map fun text => text.toList.count separator).sum := by
  induction texts with
  | nil => rfl
  | cons text texts ih =>
    rw [separated_cons, List.count_cons_self, List.count_append, ih, List.length_cons,
      List.map_cons, List.sum_cons]
    omega

/-- What comes before the first separator is the first text, if it holds none. -/
theorem takeWhile_append_separated {text : List Char} (h : separator ∉ text)
    (texts : List String) :
    (text ++ separated texts).takeWhile (fun c => c != separator) = text := by
  have hrest : (separated texts).takeWhile (fun c => c != separator) = [] := by
    cases texts with
    | nil => rfl
    | cons other texts => rfl
  rw [List.takeWhile_append_of_pos, hrest, List.append_nil]
  intro c hc
  rw [bne_iff_ne]
  rintro rfl
  exact h hc

theorem eq_of_separated_eq {texts others : List String}
    (htexts : ∀ text ∈ texts, separator ∉ text.toList)
    (hothers : ∀ other ∈ others, separator ∉ other.toList)
    (h : separated texts = separated others) : texts = others := by
  induction texts generalizing others with
  | nil =>
    cases others with
    | nil => rfl
    | cons other others => simp [separated] at h
  | cons text texts ih =>
    cases others with
    | nil => simp [separated] at h
    | cons other others =>
      rw [List.forall_mem_cons] at htexts hothers
      rw [separated_cons, separated_cons, List.cons.injEq] at h
      have hfirst : text.toList = other.toList := by
        rw [← takeWhile_append_separated htexts.1 texts, h.2,
          takeWhile_append_separated hothers.1 others]
      rw [hfirst, List.append_cancel_left_eq] at h
      rw [String.toList_injective hfirst, ih htexts.2 hothers.2 h.2]

/-- Texts without ambiguity are determined by their separated form among as many texts. -/
theorem Unambiguous.eq_of_separated_eq {texts others : List String} (htexts : Unambiguous texts)
    (hlength : others.length = texts.length) (h : separated others = separated texts) :
    others = texts := by
  rcases htexts with hone | hfree
  · match texts, others, hone, hlength with
    | [], [], _, _ => rfl
    | [text], [other], _, _ =>
      rw [separated_cons, separated_cons, List.cons.injEq, List.append_cancel_right_eq] at h
      rw [String.toList_injective h.2]
  · -- As many separators stand in the other texts, so none of them holds one either.
    have hcount := count_separated others
    rw [h, count_separated, hlength] at hcount
    have htexts : (texts.map fun text => text.toList.count separator).sum = 0 := by
      rw [List.sum_eq_zero_iff_forall_eq_nat]
      intro n hn
      obtain ⟨text, htext, rfl⟩ := List.mem_map.1 hn
      exact List.count_eq_zero.2 (hfree text htext)
    have hothers : (others.map fun other => other.toList.count separator).sum = 0 := by omega
    rw [List.sum_eq_zero_iff_forall_eq_nat] at hothers
    refine FactCube.eq_of_separated_eq (fun other hother => ?_) hfree h
    exact List.count_eq_zero.1 (hothers _ (List.mem_map_of_mem hother))

/-- A separator in one of several texts can be read as the end of that text. -/
theorem exists_separated_eq {texts : List String} (h : ¬Unambiguous texts) :
    ∃ others, others.length = texts.length ∧ separated others = separated texts ∧
      others ≠ texts := by
  simp only [Unambiguous, not_or, not_le, not_forall, not_not] at h
  obtain ⟨hlength, text, hmem, hsep⟩ := h
  obtain ⟨before, after, rfl⟩ := List.append_of_mem hmem
  obtain ⟨head, tail, htext⟩ := List.append_of_mem hsep
  cases after with
  | cons next after =>
    -- The text ends at the separator and the rest goes to the next one.
    refine ⟨before ++ String.ofList head ::
      String.ofList (tail ++ separator :: next.toList) :: after, ?_, ?_, ?_⟩
    · simp
    · simp [separated_append, separated_cons, htext]
    · intro heq
      rw [List.append_cancel_left_eq, List.cons.injEq] at heq
      have hhead := congrArg (List.length ∘ String.toList) heq.1
      simp only [Function.comp_apply, htext, String.toList_ofList, List.length_append,
        List.length_cons] at hhead
      omega
  | nil =>
    -- There is no next text, so the part before the separator goes to the one before.
    rcases List.eq_nil_or_concat before with rfl | ⟨initial, last, rfl⟩
    · simp at hlength
    · refine ⟨initial ++ [String.ofList (last.toList ++ separator :: head), String.ofList tail],
        ?_, ?_, ?_⟩
      · simp
      · simp [separated_append, separated_cons, htext]
      · intro heq
        rw [List.concat_eq_append, List.append_assoc, List.append_cancel_left_eq,
          List.singleton_append, List.cons.injEq, List.cons.injEq] at heq
        have htail := congrArg (List.length ∘ String.toList) heq.2.1
        simp only [Function.comp_apply, htext, String.toList_ofList, List.length_append,
          List.length_cons] at htail
        omega

/-- Exactly the texts without ambiguity are determined by their separated form among as many
texts. -/
theorem unambiguous_iff {texts : List String} :
    Unambiguous texts ↔ ∀ others : List String, others.length = texts.length →
      separated others = separated texts → others = texts := by
  constructor
  · exact fun h others hlength hothers => h.eq_of_separated_eq hlength hothers
  · intro h
    by_contra hambiguous
    obtain ⟨others, hlength, hothers, hne⟩ := exists_separated_eq hambiguous
    exact hne (h others hlength hothers)

/-! ## Identities -/

theorem encode_separated (texts : List String) :
    Utf8.encode (separated texts) = texts.flatMap fun text => 0x1F :: textBytes text := by
  induction texts with
  | nil => rfl
  | cons text texts ih =>
    rw [separated_cons, Utf8.encode_cons, Utf8.encode_append, ih, List.flatMap_cons]
    rfl

section Keyed

variable {schema : Schema}

/-- With keys, the identity of a fact is the bytes of the name of the dataset and of the separated
key texts. -/
theorem identity_eq_encode (hkeys : schema.keys ≠ []) (contents : Contents) :
    identity schema contents =
      Utf8.encode (schema.dataset.name.toList ++ separated (keyTexts schema contents)) := by
  rw [identity, if_neg (by simpa using hkeys), Utf8.encode_append, encode_separated]
  rfl

/-- The identities of two facts agree iff their separated key texts do. -/
theorem identity_eq_iff (hkeys : schema.keys ≠ []) {contents other : Contents} :
    identity schema contents = identity schema other ↔
      separated (keyTexts schema contents) = separated (keyTexts schema other) := by
  rw [identity_eq_encode hkeys, identity_eq_encode hkeys, Utf8.encode_injective.eq_iff,
    List.append_cancel_left_eq]

theorem length_keyTexts (schema : Schema) (contents : Contents) :
    (keyTexts schema contents).length = schema.keys.length := List.length_map _

/-- Without ambiguity the identity of a fact determines its key texts. -/
theorem identity_eq_iff_keyTexts_eq (hkeys : schema.keys ≠ []) {contents other : Contents}
    (h : Unambiguous (keyTexts schema contents)) :
    identity schema contents = identity schema other ↔
      keyTexts schema contents = keyTexts schema other := by
  rw [identity_eq_iff hkeys]
  constructor
  · intro heq
    refine (h.eq_of_separated_eq ?_ heq.symm).symm
    rw [length_keyTexts, length_keyTexts]
  · exact congrArg separated

end Keyed

/-! ## Key values -/

/-- The place of the value that names the members of a key dimension. -/
def Dimension.keyField (index : Nat) (d : Dimension) : Field :=
  match d.content with
  | .scalar _ _ => .scalar index
  | .compound _ => .component index ((d.attributeIndex? nameAttribute).getD 0)

/-- Whether the texts of the values of two records are the same for every key dimension. -/
def SameKeys (schema : Schema) (a b : Record) : Prop :=
  ∀ index d, (index, d) ∈ schema.keys →
    (a.value? (d.keyField index)).map Value.display =
      (b.value? (d.keyField index)).map Value.display

theorem exists_attributeIndex {d : Dimension} {a : Attribute} {name : String}
    (h : d.attribute? name = some a) :
    ∃ position, d.attributeIndex? name = some position ∧ d.attributes[position]? = some a := by
  rw [Dimension.attribute?, List.find?_eq_some_iff_getElem] at h
  obtain ⟨hname, position, hlt, rfl, hbefore⟩ := h
  refine ⟨position, ?_, List.getElem?_eq_getElem hlt⟩
  rw [Dimension.attributeIndex?, List.findIdx?_eq_some_iff_getElem]
  exact ⟨hlt, hname, fun j hj => by simpa using hbefore j hj⟩

section Validated

variable {doc : Document} {schema : Schema} {contents : Contents}

/-- A fact holds a text for every key dimension, and this is its key text. -/
theorem exists_keyText (hvalid : doc.validate = .ok schema) (hcontents : schema.Admits contents)
    {index : Nat} {d : Dimension} (h : (index, d) ∈ schema.keys) :
    ∃ s, valueAt contents (d.keyField index) = some (.string s) ∧
      keyText d contents[index]? = s := by
  obtain ⟨hnumbered, hkey⟩ := List.mem_filter.1 h
  have hd := Schema.mem_numbered_iff.1 hnumbered
  have htype := (Document.isSuitable_of_validate hvalid (List.mem_of_getElem? hd)).key hkey
  obtain ⟨entry, hentry, hfits⟩ := hcontents.exists_entry hd
  cases hfits with
  | @scalar datatype default? value hcontent hvalue =>
    rw [Validation.keyType?, hcontent, Option.some.injEq] at htype
    rw [htype] at hvalue
    have hfield : d.keyField index = .scalar index := by rw [Dimension.keyField, hcontent]
    have hfound : valueAt contents (d.keyField index) = some value := by
      simp only [hfield, valueAt, Field.dimension, hentry]
    obtain ⟨s, rfl⟩ := hvalue.exists_string
    exact ⟨s, hfound, by simp only [keyText, hcontent, hentry, Value.display]⟩
  | @compound attributes values hcontent hvalues =>
    rw [Validation.keyType?, hcontent, Option.map_eq_some_iff] at htype
    obtain ⟨a, ha, hstring⟩ := htype
    obtain ⟨position, hposition, hattribute⟩ := exists_attributeIndex ha
    rw [show d.attributes = attributes by rw [Dimension.attributes, hcontent]] at hattribute
    obtain ⟨hlt, rfl⟩ := List.getElem?_eq_some_iff.1 hattribute
    have hlength := List.Forall₂.length_eq hvalues
    have hvalue := List.Forall₂.get hvalues hlt (by omega)
    have hget : values[position]? = some values[position] := List.getElem?_eq_getElem (by omega)
    have hfield : d.keyField index = .component index position := by
      rw [Dimension.keyField, hcontent, hposition, Option.getD_some]
    have hfound : valueAt contents (d.keyField index) = some values[position] := by
      simp only [hfield, valueAt, Field.dimension, hentry, hget]
    have htext : keyText d contents[index]? = values[position].display := by
      simp only [keyText, hcontent, hentry, hposition, Option.bind_some, hget]
    simp only [List.get_eq_getElem, hstring] at hvalue
    obtain ⟨s, hs⟩ := hvalue.exists_string
    rw [htext, hfound, hs]
    exact ⟨s, rfl, rfl⟩

/-- Two facts have the same key values iff they have the same key texts. -/
theorem sameKeys_iff (hvalid : doc.validate = .ok schema) {a b : Record}
    (ha : schema.Admits a.contents) (hb : schema.Admits b.contents) :
    SameKeys schema a b ↔ keyTexts schema a.contents = keyTexts schema b.contents := by
  rw [keyTexts, keyTexts, List.map_inj_left, SameKeys, Prod.forall]
  refine forall₂_congr fun index d => forall_congr' fun h => ?_
  obtain ⟨s, hs, htext⟩ := exists_keyText hvalid ha h
  obtain ⟨t, ht, htext'⟩ := exists_keyText hvalid hb h
  simp only [Record.value?, hs, ht, htext, htext', Option.map_some, Option.some.injEq,
    Value.display]

theorem id_of_mapRow {row : Row} {record : Record} (h : mapRow schema row = .ok record) :
    record.id = Sha256.hex (identity schema record.contents) := by
  rw [mapRow, Outcome.map_eq_ok_iff] at h
  obtain ⟨contents, -, rfl⟩ := h
  rfl

/-- Unless the hash collides, two ids agree iff the separated key texts do, and without ambiguity
iff the key values do. -/
theorem id_eq_iff (hvalid : doc.validate = .ok schema) (hkeys : schema.keys ≠ []) {row row' : Row}
    {a b : Record} (ha : mapRow schema row = .ok a) (hb : mapRow schema row' = .ok b)
    (hfree : Sha256.IsCollisionFree [identity schema a.contents, identity schema b.contents]) :
    (a.id = b.id ↔
      separated (keyTexts schema a.contents) = separated (keyTexts schema b.contents)) ∧
    (Unambiguous (keyTexts schema a.contents) → (a.id = b.id ↔ SameKeys schema a b)) := by
  have hids : a.id = b.id ↔ identity schema a.contents = identity schema b.contents := by
    rw [id_of_mapRow ha, id_of_mapRow hb]
    constructor
    · exact hfree _ List.mem_cons_self _ (List.mem_cons_of_mem _ List.mem_cons_self)
    · exact congrArg Sha256.hex
  have hschema := Document.wellFormed_of_validate hvalid
  refine ⟨hids.trans (identity_eq_iff hkeys), fun hclear => ?_⟩
  rw [sameKeys_iff hvalid (admits_of_mapRow hschema ha) (admits_of_mapRow hschema hb)]
  exact hids.trans (identity_eq_iff_keyTexts_eq hkeys hclear)

end Validated

/-! ## Loads -/

section Keys

variable {κ : Type} [BEq κ] [LawfulBEq κ] {key : Record → κ}

/-- Where ids stand for keys, putting in facts keeps all keys in their places, and new keys come
behind them in the order in which they first appear. -/
theorem map_putFacts {records stored : List Record}
    (h : ∀ a ∈ stored ++ records, ∀ b ∈ stored ++ records, a.id = b.id ↔ key a = key b) :
    (putFacts true records stored).map key =
      stored.map key ++
        ((records.map key).filter fun k => k ∉ stored.map key).eraseDups := by
  induction records generalizing stored with
  | nil => exact (List.append_nil _).symm
  | cons record records ih =>
    have hput : (putRecord record stored).map key = _ :=
      map_putRecord fun other hother => h other (by simp [hother]) record (by simp)
    have hmem : ∀ a ∈ putRecord record stored ++ records, a ∈ stored ++ record :: records := by
      intro a ha
      rcases List.mem_append.1 ha with ha | ha
      · rcases mem_putRecord ha with rfl | ha
        · simp
        · simp [ha]
      · simp [ha]
    show (putFacts true records (putRecord record stored)).map key = _
    rw [ih fun a ha b hb => h a (hmem a ha) b (hmem b hb), hput, List.map_cons]
    by_cases hkey : key record ∈ stored.map key
    · rw [if_pos hkey, List.filter_cons_of_neg (by simpa using hkey)]
    · rw [if_neg hkey, List.filter_cons_of_pos (by simpa using hkey), List.eraseDups_cons,
        List.filter_filter, List.append_assoc, List.singleton_append]
      congr 3
      refine List.filter_congr fun k _ => Bool.eq_iff_iff.2 ?_
      simp only [decide_eq_true_eq, List.mem_append, List.mem_singleton, not_or, Bool.and_eq_true,
        Bool.not_eq_true', beq_eq_false_iff_ne, ne_eq]
      exact And.comm

end Keys

/-- The key texts of some records. -/
def keyTextsOf (schema : Schema) (records : List Record) : List (List String) :=
  records.map fun record => keyTexts schema record.contents

/-- Whether no hash collides on the identities of some records. -/
def IdentitiesKeptApart (schema : Schema) (records : List Record) : Prop :=
  Sha256.IsCollisionFree (records.map fun record => identity schema record.contents)

/-- Without ambiguity, facts put in by a load replace those with the same key texts only: stored key
texts stay in their places, and new ones come behind them in the order in which they first
appear. -/
theorem keyTextsOf_of_isLoad {schema : Schema} (hkeys : schema.keys ≠ []) {rows : List Row}
    {store after : Store} {report : LoadReport}
    (hstore : ∀ record ∈ store.toList, ∃ row, mapRow schema row = .ok record)
    (hclear : ∀ record ∈ store.toList ++ mappedFacts schema rows,
      Unambiguous (keyTexts schema record.contents))
    (hfree : IdentitiesKeptApart schema (store.toList ++ mappedFacts schema rows))
    (h : IsLoad schema rows store (.ok report) after) :
    keyTextsOf schema after.toList =
      keyTextsOf schema store.toList ++
        ((keyTextsOf schema (mappedFacts schema rows)).filter fun texts =>
          texts ∉ keyTextsOf schema store.toList).eraseDups := by
  have hmapped : ∀ record ∈ store.toList ++ mappedFacts schema rows,
      record.id = Sha256.hex (identity schema record.contents) := by
    intro record hrecord
    rcases List.mem_append.1 hrecord with hrecord | hrecord
    · obtain ⟨row, hrow⟩ := hstore record hrecord
      exact id_of_mapRow hrow
    · obtain ⟨row, -, hrow⟩ := mem_mappedFacts.1 hrecord
      exact id_of_mapRow hrow
  cases h with
  | loaded hinserted =>
    rw [hinserted.toList_eq, show (!schema.keys.isEmpty) = true by simpa using hkeys]
    refine @map_putFacts _ _ _ (fun record => keyTexts schema record.contents) _ _
      fun a ha b hb => ?_
    rw [hmapped a ha, hmapped b hb, ← identity_eq_iff_keyTexts_eq hkeys (hclear a ha)]
    constructor
    · exact hfree _ (List.mem_map_of_mem ha) _ (List.mem_map_of_mem hb)
    · exact congrArg Sha256.hex

/-! ## Keys and ids -/

/-- What the ids of a schema with keys say about the keys of its facts. -/
structure Schema.Identifies (schema : Schema) : Prop where
  /-- The hashed bytes determine the separated key texts, and without ambiguity the key texts. -/
  bytes : ∀ contents other,
    (identity schema contents = identity schema other ↔
      separated (keyTexts schema contents) = separated (keyTexts schema other)) ∧
    (Unambiguous (keyTexts schema contents) →
      (identity schema contents = identity schema other ↔
        keyTexts schema contents = keyTexts schema other))
  /-- The separated form determines the key texts iff these are without ambiguity. -/
  texts : ∀ contents,
    Unambiguous (keyTexts schema contents) ↔
      ∀ others : List String, others.length = schema.keys.length →
        separated others = separated (keyTexts schema contents) →
        others = keyTexts schema contents
  /-- Unless the hash collides, two ids agree iff the separated key texts do, and without ambiguity
  iff the key values do. -/
  ids : ∀ {row row' a b}, mapRow schema row = .ok a → mapRow schema row' = .ok b →
    IdentitiesKeptApart schema [a, b] →
    (a.id = b.id ↔
      separated (keyTexts schema a.contents) = separated (keyTexts schema b.contents)) ∧
    (Unambiguous (keyTexts schema a.contents) → (a.id = b.id ↔ SameKeys schema a b))
  /-- Without ambiguity a load replaces facts by facts with the same key texts only. -/
  loads : ∀ {store : Store} {mode workers rows report after}, store.Reachable →
    (∀ record ∈ store.toList, ∃ row, mapRow schema row = .ok record) →
    (∀ record ∈ store.toList ++ mappedFacts schema rows,
      Unambiguous (keyTexts schema record.contents)) →
    IdentitiesKeptApart schema (store.toList ++ mappedFacts schema rows) →
    (loadRows schema mode workers rows).run store = (.ok report, after) →
    keyTextsOf schema after.toList =
      keyTextsOf schema store.toList ++
        ((keyTextsOf schema (mappedFacts schema rows)).filter fun texts =>
          texts ∉ keyTextsOf schema store.toList).eraseDups

/-- Ids stand for the separated key texts, and for the key values where these are unambiguous. -/
theorem Schema.identifies_of_validate {doc : Document} {schema : Schema}
    (hvalid : doc.validate = .ok schema) (hkeys : schema.keys ≠ []) : schema.Identifies where
  bytes _ _ := ⟨identity_eq_iff hkeys, identity_eq_iff_keyTexts_eq hkeys⟩
  texts contents := by rw [unambiguous_iff, length_keyTexts]
  ids ha hb hfree := id_eq_iff hvalid hkeys ha hb hfree
  loads {store mode workers rows report after} hreachable hstore hclear hfree hrun := by
    have hload := isLoad_loadRows schema mode workers rows hreachable
    rw [hrun] at hload
    exact keyTextsOf_of_isLoad hkeys hstore hclear hfree hload

namespace Sample

/-- The document with a second key. -/
def jointDocument : Document :=
  { document true with
    dimensions :=
      [("ref", ⟨"value", "", "", some "string", [], none, false, true, none, none, none⟩),
       ("region", ⟨"value", "", "", some "string", [], none, false, true, none, none, none⟩),
       ("amount", ⟨"measure", "", "", some "float", [], none, false, false, none, none, none⟩)] }

/-- The schema of the document with two keys. -/
def jointSchema : Schema :=
  { schema true with
    dimensions :=
      [⟨"ref", .value, "", "", false, true, none, none, none, .scalar .string none⟩,
       ⟨"region", .value, "", "", false, true, none, none, none, .scalar .string none⟩,
       ⟨"amount", .measure, "", "", false, false, none, none, none, .scalar .float none⟩] }

theorem validate_joint : jointDocument.validate = .ok jointSchema := rfl

/-- The fact of a row. -/
def jointFact (ref region : String) (amount : Float) : Record :=
  Record.ofContents jointSchema (contents ref region amount)

theorem mapRow_joint {ref region amount : String} {x : Float} (href : ref.isEmpty = false)
    (hregion : region.isEmpty = false) (hamount : amount.isEmpty = false)
    (hx : readFloat amount = .ok x) :
    mapRow jointSchema (row ref region amount) = .ok (jointFact ref region x) :=
  congrArg (Except.map (Record.ofContents jointSchema)) (fillSlots_row href hregion hamount hx)

theorem unambiguous_joint : Unambiguous (keyTexts jointSchema (jointFact "a" "North" 5).contents) :=
  .inr (by decide +kernel)

theorem identity_joint :
    identity jointSchema (contents "a\x1Fb" "c" 5) =
      identity jointSchema (contents "a" "b\x1Fc" 7) := by
  decide +kernel

end Sample

/-- With two keys, facts that differ in the second only have different ids. -/
theorem Schema.identifies_of_validate_sample :
    Sample.jointDocument.validate = .ok Sample.jointSchema ∧ Sample.jointSchema.keys ≠ [] ∧
      Sample.jointSchema.Identifies ∧
      ((Sample.jointFact "a" "North" 5).id = (Sample.jointFact "a" "South" 5).id ↔
        SameKeys Sample.jointSchema (Sample.jointFact "a" "North" 5)
          (Sample.jointFact "a" "South" 5)) := by
  have hkeys : Sample.jointSchema.keys ≠ [] := List.cons_ne_nil _ _
  have hidentifies := Schema.identifies_of_validate Sample.validate_joint hkeys
  refine ⟨Sample.validate_joint, hkeys, hidentifies, ?_⟩
  exact (hidentifies.ids (@Sample.mapRow_joint _ _ "5" _ rfl rfl rfl rfl)
    (@Sample.mapRow_joint _ _ "5" _ rfl rfl rfl rfl)
    (Sha256.isCollisionFree_pair (by decide +kernel))).2 Sample.unambiguous_joint

/-- Ids alone do not tell the keys `a␟b` and `c` from `a` and `b␟c`. -/
theorem not_forall_id_eq_iff_sameKeys :
    ¬∀ (doc : Document) (schema : Schema), doc.validate = .ok schema → schema.keys ≠ [] →
      ∀ (row row' : Row) (a b : Record), mapRow schema row = .ok a → mapRow schema row' = .ok b →
        IdentitiesKeptApart schema [a, b] → (a.id = b.id ↔ SameKeys schema a b) := by
  intro h
  have hfree : IdentitiesKeptApart Sample.jointSchema
      [Sample.jointFact "a\x1Fb" "c" 5, Sample.jointFact "a" "b\x1Fc" 7] := by
    intro m hm n hn _
    simp only [List.map_cons, List.map_nil, Sample.jointFact, Record.ofContents,
      Sample.identity_joint,
      List.mem_cons, List.not_mem_nil, or_false, or_self] at hm hn
    rw [hm, hn]
  have hiff := h Sample.jointDocument Sample.jointSchema Sample.validate_joint
    (List.cons_ne_nil _ _) _ _ _ _ (@Sample.mapRow_joint _ _ "5" _ rfl rfl rfl rfl)
    (@Sample.mapRow_joint _ _ "7" _ rfl rfl rfl rfl) hfree
  have hsame := hiff.1 (congrArg Sha256.hex Sample.identity_joint) 0 _ List.mem_cons_self
  exact absurd hsame (by decide +kernel)

end FactCube
