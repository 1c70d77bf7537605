import FactCube.Bytes.Encoding
import Mathlib.Data.List.Basic

/-!
# Encodings, written and read

Every encoding can be written as well as read. What is written is read back as long as byte order
marks are taken as characters. The two tables and UTF-8 write ASCII as single bytes and use these
bytes for nothing else, so their texts can be cut at such bytes. A mark at the start of some bytes
changes how they are read: a text of UTF-8 has none unless it starts with the character of the mark,
but in the tables `ÿþ`, `þÿ` and `ï»¿` are written like marks.

Results:
* `Utf8.decode_encode`, `Encoding.decodePlain_encode`: texts are read back.
* `Encoding.encodeChar_ascii`, `eq_ofNat_of_mem_encodeChar`: bytes of ASCII characters.
* `Encoding.decode_encode_iff`: only texts without a mark at their start are read back.
-/

namespace FactCube

/-! ## UTF-8 -/

namespace Utf8

theorem toNat_lt (c : Char) : c.toNat < 0x110000 ∧ (c.toNat < 0xD800 ∨ 0xDFFF < c.toNat) := by
  rcases c.valid with h | ⟨h, h'⟩
  · exact ⟨Nat.lt_trans h (by decide), .inl h⟩
  · exact ⟨h', .inr h⟩

/-- The bytes of a character as numbers, by the length of its form. -/
inductive IsForm : Nat → List UInt8 → Prop
  | one {n : Nat} {a : UInt8} : n < 0x80 → a.toNat = n → IsForm n [a]
  | two {n : Nat} {a b : UInt8} : 0x80 ≤ n → n < 0x800 → a.toNat = 0xC0 + n / 64 →
    b.toNat = 0x80 + n % 64 → IsForm n [a, b]
  | three {n : Nat} {a b c : UInt8} : 0x800 ≤ n → n < 0x10000 → (n < 0xD800 ∨ 0xDFFF < n) →
    a.toNat = 0xE0 + n / 4096 → b.toNat = 0x80 + n / 64 % 64 → c.toNat = 0x80 + n % 64 →
    IsForm n [a, b, c]
  | four {n : Nat} {a b c d : UInt8} : 0x10000 ≤ n → n < 0x110000 → a.toNat = 0xF0 + n / 262144 →
    b.toNat = 0x80 + n / 4096 % 64 → c.toNat = 0x80 + n / 64 % 64 → d.toNat = 0x80 + n % 64 →
    IsForm n [a, b, c, d]

theorem isForm_encodeChar (c : Char) : IsForm c.toNat (encodeChar c) := by
  have hbyte : ∀ {m : Nat}, m < 256 → (UInt8.ofNat m).toNat = m := fun hm => by
    rw [UInt8.toNat_ofNat', Nat.mod_eq_of_lt hm]
  have hvalid := toNat_lt c
  simp only [encodeChar, Nat.div_one]
  generalize c.toNat = n at hvalid
  by_cases h₁ : n < 0x80
  · rw [if_pos h₁]
    exact .one h₁ (hbyte (by omega))
  by_cases h₂ : n < 0x800
  · rw [if_neg h₁, if_pos h₂]
    exact .two (by omega) h₂ (hbyte (by omega)) (hbyte (by omega))
  by_cases h₃ : n < 0x10000
  · rw [if_neg h₁, if_neg h₂, if_pos h₃]
    exact .three (by omega) h₃ hvalid.2 (hbyte (by omega)) (hbyte (by omega)) (hbyte (by omega))
  · rw [if_neg h₁, if_neg h₂, if_neg h₃]
    exact .four (by omega) hvalid.1 (hbyte (by omega)) (hbyte (by omega)) (hbyte (by omega))
      (hbyte (by omega))

theorem continuation_of_toNat {low high b : UInt8} (hlow : low.toNat ≤ b.toNat)
    (hhigh : b.toNat ≤ high.toNat) : continuation low high b = some (b.toNat - 0x80) :=
  if_pos ⟨UInt8.le_iff_toNat_le.2 hlow, UInt8.le_iff_toNat_le.2 hhigh⟩

theorem secondBounds_three {n : Nat} {a b : UInt8} (hn : 0x800 ≤ n) (hlt : n < 0x10000)
    (hsurrogate : n < 0xD800 ∨ 0xDFFF < n) (ha : a.toNat = 0xE0 + n / 4096)
    (hb : b.toNat = 0x80 + n / 64 % 64) :
    (secondBounds a).1.toNat ≤ b.toNat ∧ b.toNat ≤ (secondBounds a).2.toNat := by
  simp only [secondBounds, beq_iff_eq, ← UInt8.toNat_inj, ha, hb, UInt8.reduceToNat]
  split_ifs <;> simp only [UInt8.reduceToNat] <;> omega

/-- The bounds after the lead bytes of the longest forms. -/
theorem secondBounds_four {n : Nat} {a b : UInt8} (hn : 0x10000 ≤ n) (hlt : n < 0x110000)
    (ha : a.toNat = 0xF0 + n / 262144) (hb : b.toNat = 0x80 + n / 4096 % 64) :
    (secondBounds a).1.toNat ≤ b.toNat ∧ b.toNat ≤ (secondBounds a).2.toNat := by
  simp only [secondBounds, beq_iff_eq, ← UInt8.toNat_inj, ha, hb, UInt8.reduceToNat]
  split_ifs <;> simp only [UInt8.reduceToNat] <;> omega

theorem symbolsOnto_encodeChar (read : List Symbol) (c : Char) (rest : List UInt8) :
    symbolsOnto read (encodeChar c ++ rest) = symbolsOnto (some c :: read) rest := by
  have hchar : ∀ {m : Nat}, m = c.toNat → Char.ofNat m = c := fun hm => by
    rw [hm, Char.ofNat_toNat]
  have hform := isForm_encodeChar c
  have hlast : ∀ {b : UInt8} {m : Nat}, b.toNat = 0x80 + m % 64 →
      continuation 0x80 0xBF b = some (m % 64) := fun {b m} hb => by
    rw [continuation_of_toNat (by simp only [UInt8.reduceToNat]; omega)
      (by simp only [UInt8.reduceToNat]; omega), hb, Nat.add_sub_cancel_left]
  generalize encodeChar c = bytes at hform
  generalize hn : c.toNat = n at hform hchar
  cases hform with
  | one hlt ha =>
    rw [List.singleton_append, symbolsOnto.eq_def]
    simp only [UInt8.lt_iff_toNat_lt, ha, UInt8.reduceToNat]
    rw [if_pos hlt, hchar rfl]
  | @two a b hn hlt ha hb =>
    have htwo : two a b = some c := by
      rw [two, hlast hb, Option.map_some, hchar (by omega)]
    rw [List.cons_append, List.singleton_append, symbolsOnto.eq_def]
    simp only [UInt8.lt_iff_toNat_lt, ha, htwo, UInt8.reduceToNat]
    rw [if_neg (by omega), if_neg (by omega), if_pos (by omega)]
  | @three a b d hn hlt hsurrogate ha hb hd =>
    have hthree : three a b d = some c := by
      obtain ⟨hlow, hhigh⟩ := secondBounds_three hn hlt hsurrogate ha hb
      simp only [three, continuation_of_toNat hlow hhigh, hlast hd]
      rw [hchar (by omega)]
    rw [List.cons_append, List.cons_append, List.singleton_append, symbolsOnto.eq_def]
    simp only [UInt8.lt_iff_toNat_lt, ha, hthree, UInt8.reduceToNat]
    rw [if_neg (by omega), if_neg (by omega), if_neg (by omega), if_pos (by omega)]
  | @four a b d e hn hlt ha hb hd he =>
    have hfour : four a b d e = some c := by
      obtain ⟨hlow, hhigh⟩ := secondBounds_four hn hlt ha hb
      simp only [four, continuation_of_toNat hlow hhigh, hlast hd, hlast he]
      rw [hchar (by omega)]
    rw [List.cons_append, List.cons_append, List.cons_append, List.singleton_append,
      symbolsOnto.eq_def]
    simp only [UInt8.lt_iff_toNat_lt, ha, hfour, UInt8.reduceToNat]
    rw [if_neg (by omega), if_neg (by omega), if_neg (by omega), if_neg (by omega),
      if_pos (by omega)]

/-- A text is read back from its bytes. -/
theorem decode_encode (s : List Char) : decode (encode s) = some s := by
  have hread : ∀ read, symbolsOnto read (encode s) = read.reverse ++ s.map some := by
    induction s with
    | nil =>
      intro read
      rw [encode, List.flatMap_nil, symbolsOnto, List.map_nil, List.append_nil]
    | cons c s ih =>
      intro read
      rw [encode, List.flatMap_cons, symbolsOnto_encodeChar, ← encode, ih, List.reverse_cons,
        List.append_assoc, List.singleton_append, List.map_cons]
  exact decode_eq_some_iff.2 (hread [])

theorem length_symbolsOnto_le (read : List Symbol) (bytes : List UInt8) :
    (symbolsOnto read bytes).length ≤ read.length + bytes.length := by
  fun_induction symbolsOnto read bytes
  all_goals simp only [List.length_reverse, List.length_cons, List.length_nil] at *
  all_goals omega

/-- A text has no more characters than bytes. -/
theorem length_le_of_decode {bytes : List UInt8} {s : List Char} (h : decode bytes = some s) :
    s.length ≤ bytes.length := by
  have hlength := length_symbolsOnto_le [] bytes
  rw [decode_eq_some_iff, symbols] at h
  rwa [h, List.length_map, List.length_nil, Nat.zero_add] at hlength

end Utf8

namespace Encoding

/-! ## Single bytes -/

/-- The byte of a character in a table, if it has one. -/
def byteOf? (table : UInt8 → Char) (c : Char) : Option UInt8 :=
  ((List.range 256).map UInt8.ofNat).find? fun b => table b == c

/-- Whether a table gives the bytes different characters, and ASCII its own. -/
structure IsTable (table : UInt8 → Char) : Prop where
  byteOf?_eq : ∀ b, byteOf? table (table b) = some b
  ascii : ∀ b < 0x80, table b = Char.ofNat b.toNat

/-- What holds of all bytes can be computed. -/
theorem forall_byte {p : UInt8 → Prop} (h : ∀ n < 256, p (UInt8.ofNat n)) (b : UInt8) : p b := by
  have hp := h b.toNat b.toNat_lt
  rwa [UInt8.ofNat_toNat] at hp

theorem byteOf?_eq_of_injective {table : UInt8 → Char} (h : Function.Injective table) (b : UInt8) :
    byteOf? table (table b) = some b := by
  have hmem : b ∈ (List.range 256).map UInt8.ofNat :=
    List.mem_map.2 ⟨b.toNat, List.mem_range.2 b.toNat_lt, UInt8.ofNat_toNat⟩
  cases hfound : byteOf? table (table b) with
  | none => exact absurd (beq_self_eq_true _) (List.find?_eq_none.1 hfound b hmem)
  | some b' =>
    rw [byteOf?] at hfound
    have hsame : table b' = table b := by simpa using List.find?_some hfound
    rw [h hsame]

/-- The byte of a character of windows-1252. -/
def windowsByte (c : Char) : UInt8 :=
  if c.toNat ∈ windowsControls then UInt8.ofNat (0x80 + windowsControls.idxOf c.toNat)
  else UInt8.ofNat c.toNat

/-- The byte of a character of ISO-8859-15. -/
def latin9Byte : Char → UInt8
  | '€' => 0xA4
  | 'Š' => 0xA6
  | 'š' => 0xA8
  | 'Ž' => 0xB4
  | 'ž' => 0xB8
  | 'Œ' => 0xBC
  | 'œ' => 0xBD
  | 'Ÿ' => 0xBE
  | c => UInt8.ofNat c.toNat

theorem leftInverse_windowsByte : Function.LeftInverse windowsByte windowsChar :=
  forall_byte (by decide +kernel)

theorem leftInverse_latin9Byte : Function.LeftInverse latin9Byte latin9Char :=
  forall_byte (by decide +kernel)

theorem isTable_windowsChar : IsTable windowsChar where
  byteOf?_eq := byteOf?_eq_of_injective leftInverse_windowsByte.injective
  ascii _ hb := if_neg fun hcontrol => absurd hb (UInt8.not_lt.2 hcontrol.1)

theorem isTable_latin9Char : IsTable latin9Char where
  byteOf?_eq := byteOf?_eq_of_injective leftInverse_latin9Byte.injective
  ascii := forall_byte (by decide +kernel)

namespace IsTable

variable {table : UInt8 → Char} (h : IsTable table)

include h

theorem byteOf?_eq_some_iff {c : Char} {b : UInt8} : byteOf? table c = some b ↔ table b = c := by
  constructor
  · intro hfound
    simpa using List.find?_some hfound
  · rintro rfl
    exact h.byteOf?_eq b

theorem byteOf?_ascii {c : Char} (hc : c.toNat < 0x80) :
    byteOf? table c = some (UInt8.ofNat c.toNat) := by
  have hb : (UInt8.ofNat c.toNat).toNat = c.toNat := by
    rw [UInt8.toNat_ofNat', Nat.mod_eq_of_lt (by omega)]
  rw [h.byteOf?_eq_some_iff, h.ascii _ (UInt8.lt_iff_toNat_lt.2 (by rw [hb]; exact hc)), hb,
    Char.ofNat_toNat]

theorem map_flatMap_byteOf? {s : List Char} (hs : ∀ c ∈ s, (byteOf? table c).toList ≠ []) :
    (s.flatMap fun c => (byteOf? table c).toList).map table = s := by
  induction s with
  | nil => rfl
  | cons c s ih =>
    rw [List.forall_mem_cons] at hs
    cases hbyte : byteOf? table c with
    | none => exact absurd (by rw [hbyte]; rfl) hs.1
    | some b =>
      rw [List.flatMap_cons, hbyte, Option.toList_some, List.singleton_append, List.map_cons,
        ih hs.2, h.byteOf?_eq_some_iff.1 hbyte]

end IsTable

/-! ## Sixteen-bit units -/

/-- The units of a character: its scalar value, or a pair of surrogates. -/
def unitsOf (c : Char) : List Nat :=
  if c.toNat < 0x10000 then [c.toNat]
  else [0xD800 + (c.toNat - 0x10000) / 1024, 0xDC00 + (c.toNat - 0x10000) % 1024]

/-- The bytes of a unit, the low one first. -/
def lowBytes (u : Nat) : List UInt8 := [UInt8.ofNat (u % 256), UInt8.ofNat (u / 256)]

/-- The bytes of a unit, the high one first. -/
def highBytes (u : Nat) : List UInt8 := [UInt8.ofNat (u / 256), UInt8.ofNat (u % 256)]

theorem lt_of_mem_unitsOf {c : Char} {u : Nat} (h : u ∈ unitsOf c) : u < 0x10000 := by
  have hvalid := Utf8.toNat_lt c
  rw [unitsOf] at h
  split at h
  · rw [List.mem_singleton.1 h]
    assumption
  · simp only [List.mem_cons, List.not_mem_nil, or_false] at h
    omega

theorem ofUnits_unitsOf (c : Char) (rest : List Nat) :
    ofUnits (unitsOf c ++ rest) = (ofUnits rest).map (c :: ·) := by
  obtain ⟨hlt, hsurrogate⟩ := Utf8.toNat_lt c
  rw [unitsOf]
  by_cases hone : c.toNat < 0x10000
  · rw [if_pos hone, List.singleton_append, ofUnits.eq_def]
    simp only
    rw [if_pos (by omega), Char.ofNat_toNat]
  · rw [if_neg hone, List.cons_append, List.singleton_append, ofUnits.eq_def]
    simp only
    rw [if_neg (by omega), if_pos (by omega), if_pos (by omega), show 0x10000 +
      (0xD800 + (c.toNat - 0x10000) / 1024 - 0xD800) * 1024 +
      (0xDC00 + (c.toNat - 0x10000) % 1024 - 0xDC00) = c.toNat by omega, Char.ofNat_toNat]

theorem ofUnits_flatMap (s : List Char) : ofUnits (s.flatMap unitsOf) = some s := by
  induction s with
  | nil => rw [List.flatMap_nil, ofUnits]
  | cons c s ih => rw [List.flatMap_cons, ofUnits_unitsOf, ih, Option.map_some]

theorem units_flatMap {join : UInt8 → UInt8 → Nat} {bytesOf : Nat → List UInt8}
    (hbytes : ∀ u < 0x10000, ∃ a b, bytesOf u = [a, b] ∧ join a b = u) {us : List Nat}
    (hus : ∀ u ∈ us, u < 0x10000) : units join (us.flatMap bytesOf) = some us := by
  induction us with
  | nil => rfl
  | cons u us ih =>
    rw [List.forall_mem_cons] at hus
    obtain ⟨a, b, hu, hjoin⟩ := hbytes u hus.1
    rw [List.flatMap_cons, hu, List.cons_append, List.singleton_append, units, ih hus.2,
      Option.map_some, hjoin]

theorem lowFirst_lowBytes {u : Nat} (hu : u < 0x10000) :
    ∃ a b, lowBytes u = [a, b] ∧ lowFirst a b = u := by
  refine ⟨_, _, rfl, ?_⟩
  rw [lowFirst, UInt8.toNat_ofNat', UInt8.toNat_ofNat']
  omega

theorem highFirst_highBytes {u : Nat} (hu : u < 0x10000) :
    ∃ a b, highBytes u = [a, b] ∧ highFirst a b = u := by
  refine ⟨_, _, rfl, ?_⟩
  rw [highFirst, UInt8.toNat_ofNat', UInt8.toNat_ofNat']
  omega

/-- Bytes that are read as units are two for each. -/
theorem length_of_units {join : UInt8 → UInt8 → Nat} :
    ∀ {bytes : List UInt8} {us : List Nat}, units join bytes = some us →
      bytes.length = 2 * us.length
  | [], us, h => by
    cases h
    rfl
  | [_], us, h => by cases h
  | _ :: _ :: rest, us, h => by
    obtain ⟨vs, hvs, rfl⟩ := Option.map_eq_some_iff.1 h
    have hrest := length_of_units hvs
    simp only [List.length_cons] at hrest ⊢
    omega

theorem length_le_of_ofUnits {us : List Nat} {s : List Char} (h : ofUnits us = some s) :
    s.length ≤ us.length := by
  fun_induction ofUnits us generalizing s with
  | case1 => simpa using h
  | case2 u rest _ ih =>
    obtain ⟨t, ht, rfl⟩ := Option.map_eq_some_iff.1 h
    exact Nat.succ_le_succ (ih ht)
  | case3 u _ _ v rest _ ih =>
    obtain ⟨t, ht, rfl⟩ := Option.map_eq_some_iff.1 h
    have hrest := ih ht
    simp only [List.length_cons]
    omega
  | case4 => cases h
  | case5 => cases h
  | case6 => cases h

/-! ## Writing -/

/-- The bytes of a character, none if the encoding does not have it. -/
def encodeChar : Encoding → Char → List UInt8
  | .utf8, c => Utf8.encodeChar c
  | .windows1252, c => (byteOf? windowsChar c).toList
  | .iso885915, c => (byteOf? latin9Char c).toList
  | .utf16le, c => (unitsOf c).flatMap lowBytes
  | .utf16be, c => (unitsOf c).flatMap highBytes

/-- The bytes of a text. -/
def encode (encoding : Encoding) (s : List Char) : List UInt8 := s.flatMap encoding.encodeChar

/-- Whether an encoding has all the characters of a text. -/
def Writes (encoding : Encoding) (s : List Char) : Prop := ∀ c ∈ s, encoding.encodeChar c ≠ []

theorem encode_append (encoding : Encoding) (s t : List Char) :
    encoding.encode (s ++ t) = encoding.encode s ++ encoding.encode t :=
  List.flatMap_append

theorem encode_cons (encoding : Encoding) (c : Char) (s : List Char) :
    encoding.encode (c :: s) = encoding.encodeChar c ++ encoding.encode s :=
  List.flatMap_cons

theorem encode_intercalate (encoding : Encoding) (separator : List Char)
    (pieces : List (List Char)) : encoding.encode (separator.intercalate pieces) =
      (encoding.encode separator).intercalate (pieces.map encoding.encode) := by
  induction pieces with
  | nil => rw [List.map_nil, List.intercalate_nil, List.intercalate_nil, encode, List.flatMap_nil]
  | cons piece pieces ih =>
    cases pieces with
    | nil => rw [List.map_singleton, List.intercalate_singleton, List.intercalate_singleton]
    | cons next pieces =>
      rw [List.map_cons, List.map_cons, List.intercalate_cons_cons, List.intercalate_cons_cons,
        encode_append, encode_append, ih, List.map_cons]

theorem encode_eq_nil_iff {encoding : Encoding} {s : List Char} (h : encoding.Writes s) :
    encoding.encode s = [] ↔ s = [] := by
  rw [encode, List.flatMap_eq_nil_iff, List.eq_nil_iff_forall_not_mem]
  exact forall₂_congr fun c hc => iff_of_false (h c hc) fun hfalse => hfalse

theorem writes_utf8 (s : List Char) : utf8.Writes s := by
  intro c _ hempty
  have hform := Utf8.isForm_encodeChar c
  rw [show Utf8.encodeChar c = [] from hempty] at hform
  cases hform

/-- A text is read back from its bytes if byte order marks are taken as characters. -/
theorem decodePlain_encode {encoding : Encoding} {s : List Char} (h : encoding.Writes s) :
    encoding.decodePlain (encoding.encode s) = some s := by
  have hunits : ∀ u ∈ s.flatMap unitsOf, u < 0x10000 := by
    intro u hu
    obtain ⟨c, -, hu⟩ := List.mem_flatMap.1 hu
    exact lt_of_mem_unitsOf hu
  cases encoding with
  | utf8 => exact Utf8.decode_encode s
  | windows1252 => exact congrArg some (isTable_windowsChar.map_flatMap_byteOf? h)
  | iso885915 => exact congrArg some (isTable_latin9Char.map_flatMap_byteOf? h)
  | utf16le =>
    show (units lowFirst (s.flatMap fun c => (unitsOf c).flatMap lowBytes)).bind ofUnits = some s
    rw [← List.flatMap_assoc, units_flatMap (fun _ => lowFirst_lowBytes) hunits, Option.bind_some,
      ofUnits_flatMap]
  | utf16be =>
    show (units highFirst (s.flatMap fun c => (unitsOf c).flatMap highBytes)).bind ofUnits = some s
    rw [← List.flatMap_assoc, units_flatMap (fun _ => highFirst_highBytes) hunits, Option.bind_some,
      ofUnits_flatMap]

/-- A text has no more characters than bytes. -/
theorem length_le_of_decodePlain {encoding : Encoding} {bytes : List UInt8} {s : List Char}
    (h : encoding.decodePlain bytes = some s) : s.length ≤ bytes.length := by
  have hunits : ∀ {join : UInt8 → UInt8 → Nat}, (units join bytes).bind ofUnits = some s →
      s.length ≤ bytes.length := by
    intro join h
    obtain ⟨us, hus, hs⟩ := Option.bind_eq_some_iff.1 h
    have hbytes := length_of_units hus
    have hchars := length_le_of_ofUnits hs
    omega
  cases encoding with
  | utf8 => exact Utf8.length_le_of_decode h
  | windows1252 => exact Option.some.inj h ▸ Nat.le_of_eq (List.length_map _)
  | iso885915 => exact Option.some.inj h ▸ Nat.le_of_eq (List.length_map _)
  | utf16le => exact hunits h
  | utf16be => exact hunits h

/-! ## ASCII -/

/-- Whether an encoding writes ASCII characters as single bytes. -/
def extendsAscii : Encoding → Bool
  | .utf16le | .utf16be => false
  | _ => true

theorem encodeChar_ascii {encoding : Encoding} (he : encoding.extendsAscii = true) {c : Char}
    (hc : c.toNat < 0x80) : encoding.encodeChar c = [UInt8.ofNat c.toNat] := by
  cases encoding with
  | utf8 => exact if_pos hc
  | windows1252 => rw [encodeChar, isTable_windowsChar.byteOf?_ascii hc, Option.toList_some]
  | iso885915 => rw [encodeChar, isTable_latin9Char.byteOf?_ascii hc, Option.toList_some]
  | utf16le => cases he
  | utf16be => cases he

theorem encodeChar_utf16le_ascii {c : Char} (hc : c.toNat < 0x80) :
    utf16le.encodeChar c = [UInt8.ofNat c.toNat, 0] := by
  rw [encodeChar, unitsOf, if_pos (by omega), List.flatMap_singleton, lowBytes,
    Nat.mod_eq_of_lt (by omega), Nat.div_eq_of_lt (by omega)]
  rfl

theorem encodeChar_utf16be_ascii {c : Char} (hc : c.toNat < 0x80) :
    utf16be.encodeChar c = [0, UInt8.ofNat c.toNat] := by
  rw [encodeChar, unitsOf, if_pos (by omega), List.flatMap_singleton, highBytes,
    Nat.mod_eq_of_lt (by omega), Nat.div_eq_of_lt (by omega)]
  rfl

/-- The first byte of an ASCII character is one of ASCII. -/
theorem head_encode_lt (encoding : Encoding) {c : Char} (hc : c.toNat < 0x80) (s : List Char) :
    ∀ b ∈ (encoding.encode (c :: s)).head?, b < 0x80 := by
  have hbyte : UInt8.ofNat c.toNat < 0x80 := by
    rw [UInt8.lt_iff_toNat_lt, UInt8.toNat_ofNat', Nat.mod_eq_of_lt (by omega)]
    exact hc
  rw [encode, List.flatMap_cons]
  cases encoding with
  | utf16le =>
    rw [encodeChar_utf16le_ascii hc]
    exact fun b hb => Option.some.inj hb ▸ hbyte
  | utf16be =>
    rw [encodeChar_utf16be_ascii hc]
    exact fun b hb => Option.some.inj hb ▸ (by decide)
  | _ =>
    rw [encodeChar_ascii rfl hc]
    exact fun b hb => Option.some.inj hb ▸ hbyte

/-- Bytes that are read as a text are even in number if ASCII characters are not single bytes. -/
theorem even_of_decodePlain {encoding : Encoding} (he : encoding.extendsAscii = false)
    {bytes : List UInt8} {s : List Char} (h : encoding.decodePlain bytes = some s) :
    bytes.length % 2 = 0 := by
  have hunits : ∀ {join : UInt8 → UInt8 → Nat}, (units join bytes).bind ofUnits = some s →
      bytes.length % 2 = 0 := by
    intro join h
    obtain ⟨us, hus, -⟩ := Option.bind_eq_some_iff.1 h
    rw [length_of_units hus, Nat.mul_mod_right]
  cases encoding with
  | utf16le => exact hunits h
  | utf16be => exact hunits h
  | _ => cases he

theorem even_encode {encoding : Encoding} (he : encoding.extendsAscii = false) {s : List Char}
    (h : encoding.Writes s) : (encoding.encode s).length % 2 = 0 :=
  even_of_decodePlain he (decodePlain_encode h)

/-- A byte of ASCII is part of its own character only. -/
theorem eq_ofNat_of_mem_encodeChar {encoding : Encoding} (he : encoding.extendsAscii = true)
    {c : Char} {b : UInt8} (hmem : b ∈ encoding.encodeChar c) (hb : b < 0x80) :
    c = Char.ofNat b.toNat := by
  have htable : ∀ {table : UInt8 → Char}, IsTable table → b ∈ (byteOf? table c).toList →
      c = Char.ofNat b.toNat := by
    intro table h hmem
    rw [← h.byteOf?_eq_some_iff.1 (Option.mem_toList.1 hmem), h.ascii b hb]
  cases encoding with
  | utf8 =>
    have hform := Utf8.isForm_encodeChar c
    rw [UInt8.lt_iff_toNat_lt] at hb
    simp only [UInt8.reduceToNat] at hb
    rw [encodeChar] at hmem
    generalize Utf8.encodeChar c = bytes at hform hmem
    -- only the shortest form has a byte below 80
    cases hform with
    | one _ ha => rw [List.mem_singleton.1 hmem, ha, Char.ofNat_toNat]
    | two =>
      simp only [List.mem_cons, List.not_mem_nil, or_false] at hmem
      rcases hmem with rfl | rfl <;> omega
    | three =>
      simp only [List.mem_cons, List.not_mem_nil, or_false] at hmem
      rcases hmem with rfl | rfl | rfl <;> omega
    | four =>
      simp only [List.mem_cons, List.not_mem_nil, or_false] at hmem
      rcases hmem with rfl | rfl | rfl | rfl <;> omega
  | windows1252 => exact htable isTable_windowsChar hmem
  | iso885915 => exact htable isTable_latin9Char hmem
  | utf16le => cases he
  | utf16be => cases he

/-! ## Byte order marks -/

/-- The byte order marks. -/
def marks : List (List UInt8) := [[0xEF, 0xBB, 0xBF], [0xFF, 0xFE], [0xFE, 0xFF]]

/-- No byte of a mark is one of ASCII. -/
theorem not_lt_of_mem_marks : ∀ mark ∈ marks, ∀ b ∈ mark, ¬ b < 0x80 := by
  simp [marks]

theorem ofMark?_eq_none_iff {bytes : List UInt8} :
    ofMark? bytes = none ↔ ∀ mark ∈ marks, ¬ mark <+: bytes := by
  simp only [marks, List.forall_mem_cons, List.not_mem_nil, false_implies, forall_const, and_true]
  rw [ofMark?.eq_def]
  split
  · exact iff_of_false (Option.some_ne_none _) fun h => h.1 ⟨_, rfl⟩
  · exact iff_of_false (Option.some_ne_none _) fun h => h.2.1 ⟨_, rfl⟩
  · exact iff_of_false (Option.some_ne_none _) fun h => h.2.2 ⟨_, rfl⟩
  · rename_i hutf8 hlow hhigh
    refine iff_of_true rfl ⟨?_, ?_, ?_⟩ <;> rintro ⟨rest, rfl⟩
    · exact hutf8 rest rfl
    · exact hlow rest rfl
    · exact hhigh rest rfl

/-- What starts with ASCII does not complete a mark. -/
theorem ofMark?_append_eq_none {bytes after : List UInt8} (h : ofMark? bytes = none)
    (hafter : ∀ b ∈ after.head?, b < 0x80) : ofMark? (bytes ++ after) = none := by
  rw [ofMark?_eq_none_iff] at h ⊢
  intro mark hmark hprefix
  rcases List.prefix_or_prefix_of_prefix hprefix (List.prefix_append bytes after) with hle | hle
  · exact h mark hmark hle
  · obtain ⟨rest, rfl⟩ := hle
    cases rest with
    | nil => exact h _ hmark (by simp)
    | cons b rest =>
      have hb : b < 0x80 := by
        obtain ⟨tail, htail⟩ := (List.prefix_append_right_inj bytes).1 hprefix
        exact hafter b (by rw [← htail]; rfl)
      exact not_lt_of_mem_marks _ hmark b (List.mem_append_right _ List.mem_cons_self) hb

/-- Whether a text is written like one that starts with a byte order mark. -/
def StartsWithMark (encoding : Encoding) (s : List Char) : Prop :=
  ofMark? (encoding.encode s) ≠ none

theorem length_lt_of_ofMark? {bytes rest : List UInt8} {encoding : Encoding}
    (h : ofMark? bytes = some (encoding, rest)) : rest.length < bytes.length := by
  rw [ofMark?.eq_def] at h
  split at h <;> cases h <;> simp only [List.length_cons] <;> omega

/-- A text without a mark is read back. -/
theorem decode_encode {encoding : Encoding} {s : List Char} (h : encoding.Writes s)
    (hmark : ¬ encoding.StartsWithMark s) :
    encoding.decode (encoding.encode s) = some (String.ofList s) := by
  rw [StartsWithMark, not_not] at hmark
  simp only [decode, hmark, Option.getD_none, decodePlain_encode h, Option.map_some]

/-- A text has no more characters than bytes, and less if there is a mark. -/
theorem length_le_of_decode {encoding : Encoding} {bytes : List UInt8} {s : String}
    (h : encoding.decode bytes = some s) : s.toList.length ≤ bytes.length ∧
      (ofMark? bytes ≠ none → s.toList.length < bytes.length) := by
  rw [decode, Option.map_eq_some_iff] at h
  obtain ⟨t, ht, rfl⟩ := h
  rw [String.toList_ofList]
  cases hmark : ofMark? bytes with
  | none =>
    rw [hmark, Option.getD_none] at ht
    exact ⟨length_le_of_decodePlain ht, fun hne => absurd rfl hne⟩
  | some found =>
    rw [hmark, Option.getD_some] at ht
    have hlt := length_lt_of_ofMark? hmark
    have hle := length_le_of_decodePlain ht
    exact ⟨by omega, fun _ => by omega⟩

/-- A text of UTF-8 has no mark unless it starts with the character of the mark. -/
theorem not_startsWithMark_utf8 {s : List Char} (hs : '\uFEFF' ∉ s) : ¬ utf8.StartsWithMark s := by
  rw [StartsWithMark, not_not]
  cases s with
  | nil => rfl
  | cons c s =>
    have hc : c.toNat ≠ 0xFEFF := fun hc => hs (by
      rw [← Char.ofNat_toNat c, hc]
      exact List.mem_cons_self)
    have hform := Utf8.isForm_encodeChar c
    show ofMark? (Utf8.encodeChar c ++ s.flatMap utf8.encodeChar) = none
    generalize Utf8.encodeChar c = bytes at hform
    generalize s.flatMap utf8.encodeChar = tail
    generalize c.toNat = n at hform hc
    rw [ofMark?.eq_def]
    split
    case h_4 => rfl
    all_goals
      rename_i heq
      cases hform <;> cases heq <;> simp only [UInt8.reduceToNat] at * <;> omega

/-- A text that is written like a mark has as many bytes as characters. -/
theorem length_encode_of_startsWithMark {encoding : Encoding} (he : encoding.extendsAscii = true)
    {s : List Char} (h : encoding.Writes s) (hs : '\uFEFF' ∉ s)
    (hmark : encoding.StartsWithMark s) : (encoding.encode s).length = s.length := by
  have htable : ∀ {table : UInt8 → Char}, IsTable table →
      encoding.encodeChar = (fun c => (byteOf? table c).toList) →
      (encoding.encode s).length = s.length := by
    intro table htable hchar
    rw [Writes, hchar] at h
    rw [encode, hchar, ← List.length_map table, htable.map_flatMap_byteOf? h]
  cases encoding with
  | utf8 => exact absurd hmark (not_startsWithMark_utf8 hs)
  | windows1252 => exact htable isTable_windowsChar rfl
  | iso885915 => exact htable isTable_latin9Char rfl
  | utf16le => cases he
  | utf16be => cases he

/-- Where ASCII characters are single bytes, only texts without a mark are read back. -/
theorem decode_encode_iff {encoding : Encoding} (he : encoding.extendsAscii = true)
    {s : List Char} (h : encoding.Writes s) (hs : '\uFEFF' ∉ s) :
    encoding.decode (encoding.encode s) = some (String.ofList s) ↔
      ¬ encoding.StartsWithMark s := by
  refine ⟨fun hread hmark => ?_, decode_encode h⟩
  have hlt := (length_le_of_decode hread).2 hmark
  rw [String.toList_ofList, length_encode_of_startsWithMark he h hs hmark] at hlt
  exact absurd hlt (Nat.lt_irrefl _)

/-- An odd number of bytes without a mark is no text if ASCII characters are not single bytes. -/
theorem decode_eq_none_of_odd {encoding : Encoding} (he : encoding.extendsAscii = false)
    {bytes : List UInt8} (hmark : ofMark? bytes = none) (hodd : bytes.length % 2 = 1) :
    encoding.decode bytes = none := by
  simp only [decode, hmark, Option.getD_none, Option.map_eq_none_iff]
  cases hread : encoding.decodePlain bytes with
  | none => rfl
  | some s =>
    have heven := even_of_decodePlain he hread
    omega

end Encoding

end FactCube
