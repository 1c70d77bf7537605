import FactCube.Proofs.JsonNumbers

/-!
# JSON texts that read back

A value written on one line is read as the node that says what was written, and the reader stops
where the line ends: behind a string at its quote, behind an array or an object at its bracket, and
behind a number at the first character that continues none. The reader counts its steps; a value
needs at most three for each character of its text, so the length of the text is enough.

Results:
* `Json.RawText.text_rawOf`: the text of a string comes back from what is read between the quotes.
* `Json.readValue_compactText`: a value in front of other text is read as its node.
* `Json.read_compactText`: the text of a value is read as its node, with nothing behind it.
-/

namespace FactCube.Json

open Decimal (digitText isDigit)
open Utf8 (Symbol)

/-! ## Strings -/

/-- The piece a character of a string is read as; a control without a letter of its own is written
as its number. -/
def pieceOf (c : Char) : Piece :=
  if c.toNat < 0x20 ∧ c ∉ ['\x08', '\x0c', '\n', '\r', '\t'] then .unit c.toNat else .char c

/-- What is read between the quotes of a string. -/
def rawOf (s : String) : RawText := ⟨s.toList.map pieceOf, none⟩

/-- Four digits are read as the number they were written for. -/
theorem exists_hex4 {n : Nat} (h : n < 0x20) :
    ∃ a b c d, hex4 n = [a, b, c, d] ∧ hex4? (some a) (some b) (some c) (some d) = some n := by
  have hall : ∀ n < 0x20, (hex4 n).length = 4 ∧
      hex4? (hex4 n)[0]? (hex4 n)[1]? (hex4 n)[2]? (hex4 n)[3]? = some n := by decide
  obtain ⟨hlength, hvalue⟩ := hall n h
  obtain ⟨a, b, c, d, hdigits⟩ := List.length_eq_four.1 hlength
  rw [hdigits] at hvalue
  exact ⟨a, b, c, d, hdigits, hvalue⟩

theorem readString_of_plain {c : Char} (hquote : c ≠ '"') (hslash : c ≠ '\\')
    (hcontrol : ¬c.toNat < 0x20) (rest : List Symbol) :
    readString (some c :: rest) = RawText.cons (.char c) (readString rest) := by
  rw [readString.eq_def]
  split <;> simp_all

/-- An escaped character is read as its piece. -/
theorem readString_escape (c : Char) (rest : List Symbol) :
    readString ((escape c).map some ++ rest) = RawText.cons (pieceOf c) (readString rest) := by
  rw [escape]
  split_ifs with hself hback hfeed hline hreturn htab hcontrol
  · rw [Bool.or_eq_true, beq_iff_eq, beq_iff_eq] at hself
    rcases hself with rfl | rfl <;> simp [readString, pieceOf, escaped?]
  · rw [eq_of_beq hback]
    simp [readString, pieceOf, escaped?]
  · rw [eq_of_beq hfeed]
    simp [readString, pieceOf, escaped?]
  · rw [eq_of_beq hline]
    simp [readString, pieceOf, escaped?]
  · rw [eq_of_beq hreturn]
    simp [readString, pieceOf, escaped?]
  · rw [eq_of_beq htab]
    simp [readString, pieceOf, escaped?]
  · obtain ⟨x, y, z, w, hdigits, hvalue⟩ := exists_hex4 hcontrol
    have hpiece : pieceOf c = .unit c.toNat := by
      rw [pieceOf, if_pos]
      simp_all
    rw [hdigits, hpiece]
    simp [readString, hvalue]
  · rw [Bool.or_eq_true, not_or, beq_iff_eq, beq_iff_eq] at hself
    have hpiece : pieceOf c = .char c := if_neg fun h => hcontrol h.1
    rw [hpiece]
    exact readString_of_plain hself.1 hself.2 hcontrol rest

/-- A string is read up to its closing quote. -/
theorem readString_flatMap_escape (s : List Char) (rest : List Symbol) :
    readString ((s.flatMap escape).map some ++ some '"' :: rest) =
      (⟨s.map pieceOf, none⟩, some rest) := by
  induction s with
  | nil => rw [List.flatMap_nil, List.map_nil, List.nil_append, readString, List.map_nil]
  | cons c s ih =>
    rw [List.flatMap_cons, List.map_append, List.append_assoc, readString_escape, ih]
    rfl

theorem joinPieces_map_pieceOf (s : List Char) : joinPieces none (s.map pieceOf) = .ok s := by
  induction s with
  | nil => rfl
  | cons c s ih =>
    rw [List.map_cons, pieceOf]
    split
    · rename_i hcontrol
      have hlow : c.toNat < 0xD800 := by omega
      rw [joinPieces.eq_def]
      simp only [hlow, true_or, if_true, ih, Char.ofNat_toNat]
      rfl
    · rw [joinPieces, ih]
      rfl

/-- The text of a string comes back from what is read between the quotes. -/
theorem RawText.text_rawOf (s : String) : (rawOf s).text = .ok s := by
  rw [RawText.text, rawOf, joinPieces_map_pieceOf]
  exact congrArg Except.ok (String.ofList_toList)

/-! ## Nodes -/

mutual

/-- The node of a value; a float that is not finite is written as the word for nothing. -/
def node : Json → Node
  | .null => .null
  | .boolean b => .boolean b
  | .integer n => .number (integerNumeral n)
  | .float x => if Binary64.isFinite x then .number (exactNumeral x) else .null
  | .string s => .text (rawOf s)
  | .array items => .list (itemNodes items) none
  | .object members => .table (memberNodes members) none

/-- The nodes of the items of an array. -/
def itemNodes : List Json → List Node
  | [] => []
  | item :: items => node item :: itemNodes items

/-- The names and the nodes of the members of an object. -/
def memberNodes : List (String × Json) → List (RawText × Node)
  | [] => []
  | (name, value) :: members => (rawOf name, node value) :: memberNodes members

end

/-! ## Values -/

theorem skipSpace_cons {c : Char} (h : isSpace c = false) (rest : List Symbol) :
    skipSpace (some c :: rest) = some c :: rest :=
  List.dropWhile_cons_of_neg (by rw [Option.any_some, h]; exact Bool.false_ne_true)

theorem isSpace_of_isDigit {c : Char} (h : isDigit c = true) : isSpace c = false := by
  have hne : ∀ {d : Char}, isDigit d = false → (c == d) = false := fun hd =>
    beq_eq_false_iff_ne.2 (Decimal.ne_of_isDigit h hd)
  rw [isSpace, hne (by decide), hne (by decide), hne (by decide), hne (by decide)]
  rfl

theorem readValue_of_isDigit {c : Char} (h : isDigit c = true) (fuel : Nat) (rest : List Symbol) :
    readValue (fuel + 1) (some c :: rest) = readNumber false (some c :: rest) := by
  rw [readValue, skipSpace_cons (isSpace_of_isDigit h)]
  split
  case h_9 heq =>
    cases heq
    rw [Option.any_some, h, if_pos rfl]
  all_goals
    rename_i heq
    cases heq
  -- the characters that start something else are no digits
  all_goals exact absurd h (by decide)

/-- A number with its sign is read digit by digit up to what follows it. -/
theorem readValue_signed {n : Numeral} (h : n.IsWritten) {rest : List Symbol}
    (hrest : EndsNumber rest) (fuel : Nat) :
    readValue (fuel + 1) ((Decimal.signed n.negative n.text).toList.map some ++ rest) =
      (.number n, some rest) := by
  have hread := readNumber_text h hrest
  rw [Decimal.signed, String.toList_ofList]
  cases hsign : n.negative with
  | true =>
    rw [hsign] at hread
    exact hread
  | false =>
    obtain ⟨c, whole, hcons⟩ := List.exists_cons_of_ne_nil h.whole_ne_nil
    have hdigit : isDigit c = true := h.whole_digits c (hcons ▸ List.mem_cons_self)
    rw [hsign, Numeral.text, hcons] at hread
    rw [Numeral.text, hcons]
    exact (readValue_of_isDigit hdigit fuel _).trans hread

/-- A text starts with a character that is no blank and does not close an array. -/
def StartsValue (s : List Char) : Prop := ∃ c t, s = c :: t ∧ isSpace c = false ∧ c ≠ ']'

theorem StartsValue.append {s : List Char} (h : StartsValue s) (t : List Char) :
    StartsValue (s ++ t) := by
  obtain ⟨c, s, rfl, hc⟩ := h
  exact ⟨c, s ++ t, rfl, hc⟩

theorem startsValue_signed {negative : Bool} {c : Char} (h : isDigit c = true) (s : List Char) :
    StartsValue (Decimal.signed negative (c :: s)).toList := by
  rw [Decimal.signed, String.toList_ofList]
  cases negative with
  | true => exact ⟨_, _, rfl, by decide, by decide⟩
  | false => exact ⟨c, s, rfl, isSpace_of_isDigit h, Decimal.ne_of_isDigit h (by decide)⟩

theorem startsValue_numeral {n : Numeral} (h : n.IsWritten) :
    StartsValue (Decimal.signed n.negative n.text).toList := by
  obtain ⟨c, whole, hcons⟩ := List.exists_cons_of_ne_nil h.whole_ne_nil
  rw [Numeral.text, hcons]
  exact startsValue_signed (h.whole_digits c (hcons ▸ List.mem_cons_self)) _

theorem startsValue_compactText (j : Json) : StartsValue j.compactText := by
  cases j with
  | null => exact ⟨_, _, rfl, by decide, by decide⟩
  | boolean b => cases b <;> exact ⟨_, _, rfl, by decide, by decide⟩
  | integer n =>
    rw [compactText, integerText_eq]
    exact startsValue_numeral (isWritten_integerNumeral n)
  | float x =>
    rw [compactText, floatText]
    split
    · rw [exact_eq]
      exact startsValue_numeral (isWritten_exactNumeral x)
    · exact ⟨_, _, rfl, by decide, by decide⟩
  | string s => exact ⟨_, _, rfl, by decide, by decide⟩
  | array items => exact ⟨_, _, rfl, by decide, by decide⟩
  | object members => exact ⟨_, _, rfl, by decide, by decide⟩

/-! ## Items and members -/

/-- The text of the items behind the first. -/
def itemsTail (items : List Json) : List Char :=
  if items.isEmpty then [] else ',' :: compactItems items

/-- The text of the members behind the first. -/
def membersTail (members : List (String × Json)) : List Char :=
  if members.isEmpty then [] else ',' :: compactMembers members

theorem compactItems_cons (item : Json) (items : List Json) :
    compactItems (item :: items) = item.compactText ++ itemsTail items := by
  cases items with
  | nil => exact (List.append_nil _).symm
  | cons next items => rfl

theorem compactMembers_cons (name : String) (value : Json) (members : List (String × Json)) :
    compactMembers ((name, value) :: members) =
      '"' :: (name.toList.flatMap escape ++
        '"' :: ':' :: (value.compactText ++ membersTail members)) := by
  cases members <;> simp [compactMembers, stringText, membersTail]

theorem compactMembers_eq_cons (name : String) (value : Json) (members : List (String × Json)) :
    compactMembers ((name, value) :: members) =
      '"' :: (compactMembers ((name, value) :: members)).tail := by
  rw [compactMembers_cons]
  rfl

theorem itemsTail_cons (item : Json) (items : List Json) :
    itemsTail (item :: items) = ',' :: compactItems (item :: items) := rfl

theorem membersTail_cons (member : String × Json) (members : List (String × Json)) :
    membersTail (member :: members) = ',' :: compactMembers (member :: members) := rfl

theorem readItems_end (fuel : Nat) (first : Bool) (rest : List Symbol) :
    readItems (fuel + 1) first (some ']' :: rest) = ([], none, some rest) := by
  rw [readItems, skipSpace_cons (by decide)]
  rfl

theorem readItems_first {s : List Char} (h : StartsValue s) (fuel : Nat) (rest : List Symbol) :
    readItems (fuel + 1) true (s.map some ++ rest) = nextItem fuel (s.map some ++ rest) := by
  obtain ⟨c, s, rfl, hspace, hclose⟩ := h
  rw [List.map_cons, List.cons_append, readItems, skipSpace_cons hspace]
  split <;> simp_all

theorem readItems_comma {s : List Char} (h : StartsValue s) (fuel : Nat) (rest : List Symbol) :
    readItems (fuel + 1) false (some ',' :: (s.map some ++ rest)) =
      nextItem fuel (s.map some ++ rest) := by
  obtain ⟨c, s, rfl, hspace, hclose⟩ := h
  have hcomma : isSpace ',' = false := by decide
  rw [readItems, skipSpace_cons hcomma, List.map_cons, List.cons_append]
  split
  case h_3 heq =>
    cases heq
    rw [if_neg Bool.false_ne_true, if_pos (beq_self_eq_true _), skipSpace_cons hspace]
    split
    · rename_i heq
      exact absurd (Option.some.inj (List.cons.inj heq).1) hclose
    · rfl
  all_goals
    rename_i heq
    cases heq

theorem nextItem_of_readValue {fuel : Nat} {s rest : List Symbol} {node : Node}
    (h : readValue fuel s = (node, some rest)) :
    nextItem (fuel + 1) s =
      (node :: (readItems fuel false rest).1, (readItems fuel false rest).2) := by
  rw [nextItem, h]

theorem readMembers_end (fuel : Nat) (first : Bool) (rest : List Symbol) :
    readMembers (fuel + 1) first (some '}' :: rest) = ([], none, some rest) := by
  rw [readMembers, skipSpace_cons (by decide)]
  rfl

theorem readMembers_first (fuel : Nat) (s : List Symbol) :
    readMembers (fuel + 1) true (some '"' :: s) = nextMember fuel s := by
  rw [readMembers, skipSpace_cons (by decide)]
  rfl

theorem readMembers_comma (fuel : Nat) (s : List Symbol) :
    readMembers (fuel + 1) false (some ',' :: some '"' :: s) = nextMember fuel s := by
  rw [readMembers]
  rfl

theorem nextMember_of_readValue {fuel : Nat} {s rest : List Symbol} {node : Node} (name : String)
    (h : readValue fuel s = (node, some rest)) :
    nextMember (fuel + 1) ((name.toList.flatMap escape).map some ++ some '"' :: some ':' :: s) =
      ((rawOf name, node) :: (readMembers fuel false rest).1,
        (readMembers fuel false rest).2) := by
  have hcolon : isSpace ':' = false := by decide
  simp only [nextMember, readString_flatMap_escape, skipSpace_cons hcolon, h]
  rfl

/-! ## Values -/

theorem readValue_integer (n : Int) (fuel : Nat) {rest : List Symbol} (hrest : EndsNumber rest) :
    readValue (fuel + 1) ((compactText (.integer n)).map some ++ rest) =
      (node (.integer n), some rest) := by
  rw [compactText, integerText_eq]
  exact readValue_signed (isWritten_integerNumeral n) hrest fuel

theorem readValue_float (x : Float) (fuel : Nat) {rest : List Symbol} (hrest : EndsNumber rest) :
    readValue (fuel + 1) ((compactText (.float x)).map some ++ rest) =
      (node (.float x), some rest) := by
  rw [compactText, floatText, node]
  split
  · rw [exact_eq]
    exact readValue_signed (isWritten_exactNumeral x) hrest fuel
  · rfl

theorem readValue_string (s : String) (fuel : Nat) (rest : List Symbol) :
    readValue (fuel + 1) ((compactText (.string s)).map some ++ rest) =
      (node (.string s), some rest) := by
  have hread := readString_flatMap_escape s.toList rest
  have htext : (compactText (.string s)).map some ++ rest =
      some '"' :: ((s.toList.flatMap escape).map some ++ some '"' :: rest) := by
    simp [compactText, stringText]
  rw [htext, readValue, skipSpace_cons (by decide)]
  simp only [hread]
  rfl

/-- What follows an item continues no number. -/
theorem endsNumber_itemsTail (items : List Json) (rest : List Symbol) :
    EndsNumber ((itemsTail items).map some ++ some ']' :: rest) := by
  cases items <;> exact endsNumber_cons (by decide)

theorem endsNumber_membersTail (members : List (String × Json)) (rest : List Symbol) :
    EndsNumber ((membersTail members).map some ++ some '}' :: rest) := by
  cases members <;> exact endsNumber_cons (by decide)

theorem startsValue_compactItems (item : Json) (items : List Json) :
    StartsValue (compactItems (item :: items)) := by
  rw [compactItems_cons]
  exact (startsValue_compactText item).append _

/-- An item is read and then the items behind it. -/
theorem nextItem_compactItems {item : Json} {items : List Json} {fuel : Nat} {rest : List Symbol}
    (hitem : ∀ behind, EndsNumber behind →
      readValue fuel (item.compactText.map some ++ behind) = (item.node, some behind))
    (htail : readItems fuel false ((itemsTail items).map some ++ some ']' :: rest) =
      (itemNodes items, none, some rest)) :
    nextItem (fuel + 1) ((compactItems (item :: items)).map some ++ some ']' :: rest) =
      (itemNodes (item :: items), none, some rest) := by
  rw [compactItems_cons, List.map_append, List.append_assoc,
    nextItem_of_readValue (hitem _ (endsNumber_itemsTail items rest)), htail]
  rfl

/-- A member is read behind the quote of its name, and then the members behind it. -/
theorem nextMember_compactMembers {name : String} {value : Json} {members : List (String × Json)}
    {fuel : Nat} {rest : List Symbol}
    (hvalue : ∀ behind, EndsNumber behind →
      readValue fuel (value.compactText.map some ++ behind) = (value.node, some behind))
    (htail : readMembers fuel false ((membersTail members).map some ++ some '}' :: rest) =
      (memberNodes members, none, some rest)) :
    nextMember (fuel + 1)
        ((compactMembers ((name, value) :: members)).tail.map some ++ some '}' :: rest) =
      (memberNodes ((name, value) :: members), none, some rest) := by
  have hread := nextMember_of_readValue name (hvalue _ (endsNumber_membersTail members rest))
  rw [htail] at hread
  rw [compactMembers_cons, memberNodes]
  simpa using hread

theorem readValue_array {items : List Json} {fuel : Nat} {rest : List Symbol}
    (h : readItems fuel true ((compactItems items).map some ++ some ']' :: rest) =
      (itemNodes items, none, some rest)) :
    readValue (fuel + 1) ((compactText (.array items)).map some ++ rest) =
      (node (.array items), some rest) := by
  have htext : (compactText (.array items)).map some ++ rest =
      some '[' :: ((compactItems items).map some ++ some ']' :: rest) := by
    simp [compactText]
  rw [htext, readValue, skipSpace_cons (by decide)]
  simp only [h]
  rfl

theorem readValue_object {members : List (String × Json)} {fuel : Nat} {rest : List Symbol}
    (h : readMembers fuel true ((compactMembers members).map some ++ some '}' :: rest) =
      (memberNodes members, none, some rest)) :
    readValue (fuel + 1) ((compactText (.object members)).map some ++ rest) =
      (node (.object members), some rest) := by
  have htext : (compactText (.object members)).map some ++ rest =
      some '{' :: ((compactMembers members).map some ++ some '}' :: rest) := by
    simp [compactText]
  rw [htext, readValue, skipSpace_cons (by decide)]
  simp only [h]
  rfl

/-! ## Steps -/

theorem length_array (items : List Json) :
    (compactText (.array items)).length = (compactItems items).length + 2 := by
  simp [compactText]

theorem length_object (members : List (String × Json)) :
    (compactText (.object members)).length = (compactMembers members).length + 2 := by
  simp [compactText]

theorem length_compactItems (item : Json) (items : List Json) :
    (compactItems (item :: items)).length =
      item.compactText.length + (itemsTail items).length := by
  rw [compactItems_cons, List.length_append]

theorem length_compactMembers (name : String) (value : Json) (members : List (String × Json)) :
    value.compactText.length + (membersTail members).length + 3 ≤
      (compactMembers ((name, value) :: members)).length := by
  rw [compactMembers_cons]
  simp only [List.length_cons, List.length_append]
  omega

mutual

/-- A value in front of other text is read as its node. -/
theorem readValue_compactText : ∀ (j : Json) (fuel : Nat) (rest : List Symbol),
    3 * j.compactText.length ≤ fuel → EndsNumber rest →
      readValue fuel (j.compactText.map some ++ rest) = (j.node, some rest)
  | j, 0, _, hfuel, _ => by
    obtain ⟨c, t, hcons, -⟩ := startsValue_compactText j
    rw [hcons, List.length_cons] at hfuel
    omega
  | .null, _ + 1, _, _, _ => rfl
  | .boolean true, _ + 1, _, _, _ => rfl
  | .boolean false, _ + 1, _, _, _ => rfl
  | .integer n, fuel + 1, _, _, hrest => readValue_integer n fuel hrest
  | .float x, fuel + 1, _, _, hrest => readValue_float x fuel hrest
  | .string s, fuel + 1, rest, _, _ => readValue_string s fuel rest
  | .array items, fuel + 1, rest, hfuel, _ => by
    rw [length_array] at hfuel
    refine readValue_array ?_
    cases items with
    | nil =>
      obtain ⟨fuel, rfl⟩ := Nat.exists_eq_add_of_le' (show 1 ≤ fuel by omega)
      exact readItems_end fuel true rest
    | cons item items =>
      rw [length_compactItems] at hfuel
      obtain ⟨fuel, rfl⟩ := Nat.exists_eq_add_of_le' (show 2 ≤ fuel by omega)
      rw [readItems_first (startsValue_compactItems item items)]
      exact nextItem_compactItems
        (fun behind => readValue_compactText item fuel behind (by omega))
        (readItems_itemsTail items fuel rest (by omega))
  | .object members, fuel + 1, rest, hfuel, _ => by
    rw [length_object] at hfuel
    refine readValue_object ?_
    cases members with
    | nil =>
      obtain ⟨fuel, rfl⟩ := Nat.exists_eq_add_of_le' (show 1 ≤ fuel by omega)
      exact readMembers_end fuel true rest
    | cons member members =>
      obtain ⟨name, value⟩ := member
      have hlength := length_compactMembers name value members
      obtain ⟨fuel, rfl⟩ := Nat.exists_eq_add_of_le' (show 2 ≤ fuel by omega)
      rw [compactMembers_eq_cons, List.map_cons, List.cons_append, readMembers_first]
      exact nextMember_compactMembers
        (fun behind => readValue_compactText value fuel behind (by omega))
        (readMembers_membersTail members fuel rest (by omega))

/-- The items behind the first are read up to the end of their array. -/
theorem readItems_itemsTail : ∀ (items : List Json) (fuel : Nat) (rest : List Symbol),
    3 * (itemsTail items).length + 1 ≤ fuel →
      readItems fuel false ((itemsTail items).map some ++ some ']' :: rest) =
        (itemNodes items, none, some rest)
  | _, 0, _, hfuel => absurd hfuel (by omega)
  | [], fuel + 1, rest, _ => readItems_end fuel false rest
  | item :: items, fuel + 1, rest, hfuel => by
    rw [itemsTail_cons, List.length_cons, length_compactItems] at hfuel
    obtain ⟨fuel, rfl⟩ := Nat.exists_eq_add_of_le' (show 1 ≤ fuel by omega)
    rw [itemsTail_cons, List.map_cons, List.cons_append,
      readItems_comma (startsValue_compactItems item items)]
    exact nextItem_compactItems (fun behind => readValue_compactText item fuel behind (by omega))
      (readItems_itemsTail items fuel rest (by omega))

/-- The members behind the first are read up to the end of their object. -/
theorem readMembers_membersTail : ∀ (members : List (String × Json)) (fuel : Nat)
    (rest : List Symbol), 3 * (membersTail members).length + 1 ≤ fuel →
      readMembers fuel false ((membersTail members).map some ++ some '}' :: rest) =
        (memberNodes members, none, some rest)
  | _, 0, _, hfuel => absurd hfuel (by omega)
  | [], fuel + 1, rest, _ => readMembers_end fuel false rest
  | (name, value) :: members, fuel + 1, rest, hfuel => by
    have hlength := length_compactMembers name value members
    rw [membersTail_cons, List.length_cons] at hfuel
    obtain ⟨fuel, rfl⟩ := Nat.exists_eq_add_of_le' (show 1 ≤ fuel by omega)
    rw [membersTail_cons, List.map_cons, compactMembers_eq_cons, List.map_cons, List.cons_append,
      List.cons_append, readMembers_comma]
    exact nextMember_compactMembers
      (fun behind => readValue_compactText value fuel behind (by omega))
      (readMembers_membersTail members fuel rest (by omega))

end

/-- The text of a value is read as its node, with nothing behind it. -/
theorem read_compactText (j : Json) : read (j.compactText.map some) = (j.node, some []) := by
  have hread := readValue_compactText j (3 * (j.compactText.map some).length + 3) []
    (by rw [List.length_map]; omega) endsNumber_nil
  rwa [List.append_nil] at hread

end FactCube.Json
