import FactCube.Proofs.NumberTexts
import FactCube.Query.Condition

/-!
# Conditions and their texts

A condition is cut at its first operator sign. Before it stands the field, from it on the longest
spelling of an operator that fits, and behind that the literal, from which one pair of equal quotes
around it is taken. As the first sign stands before the quotes, whatever is between them comes back
as it is: blanks, signs and other quotes.

Results:
* `Operator.atStart_eq_some_iff`: of the operators that fit, the longest is taken.
* `splitAtOperator_eq`: a text is cut at its first sign.
* `unquotes_iff`: one pair of equal quotes is taken off.
* `Condition.ofText_parts`: a field, an operator and what is behind it are read apart.
* `Condition.isParsed`: which texts are conditions, and which ones they are.
-/

namespace FactCube

/-! ## The grammar -/

/-- The ways to spell the operators. -/
def Operator.spellings : List (List Char × Operator) :=
  [(['='], .equal), ([':'], .equal), (['!'], .notEqual), (['!', '='], .notEqual),
   (['>'], .greater), (['>', '='], .greaterOrEqual), (['>', ':'], .greaterOrEqual),
   (['<'], .less), (['<', '='], .lessOrEqual), (['<', ':'], .lessOrEqual)]

/-- The characters a spelling starts with. -/
def Operator.signs : List Char := ['=', ':', '!', '>', '<']

/-- Whether a text starts with a spelling of an operator, with no longer spelling of any operator,
and goes on with `rest`. -/
def Operator.IsLongestAt (s : List Char) (operator : Operator) (rest : List Char) : Prop :=
  ∃ spelling, (spelling, operator) ∈ spellings ∧ spelling ++ rest = s ∧
    ∀ other ∈ spellings, other.1 <+: s → other.1.length ≤ spelling.length

/-- The part of a text before its first operator sign. -/
def beforeSign (s : List Char) : List Char := s.takeWhile fun c => !Operator.signs.contains c

/-- The part of a text from its first operator sign on. -/
def fromSign (s : List Char) : List Char := s.dropWhile fun c => !Operator.signs.contains c

/-- The quotes that can stand around a literal. -/
def quotes : List Char := ['"', '\x27']

/-- Whether the second text is the first without a pair of equal quotes around it, if there is
one. -/
inductive Unquotes : List Char → List Char → Prop
  | quoted {quote : Char} {inner : List Char} : quote ∈ quotes →
    Unquotes (quote :: (inner ++ [quote])) inner
  | plain {s : List Char} : (∀ quote ∈ quotes, ∀ inner, s ≠ quote :: (inner ++ [quote])) →
    Unquotes s s

/-- Whether a condition is what a text says: the field is the part before the first sign without
blanks at its ends, the operator is the longest one at that sign, and the literal is what follows,
without blanks at its ends and then without quotes. -/
structure Condition.IsReadingOf (c : Condition) (s : List Char) : Prop where
  named : beforeSign s ≠ []
  field : c.field.toList = Text.trim (beforeSign s)
  literal : ∃ rest, Operator.IsLongestAt (fromSign s) c.operator rest ∧
    Unquotes (Text.trim rest) c.literal.toList

/-- Whether a field can stand before an operator: it is not empty, has no blanks at its ends and
holds no sign. -/
structure Condition.HasPlainField (c : Condition) : Prop where
  ne_nil : c.field.toList ≠ []
  trimmed : Text.trim c.field.toList = c.field.toList
  unsigned : ∀ ch ∈ c.field.toList, ch ∉ Operator.signs

/-- A way to write a condition with quotes around its literal: the spelling of its operator, the
quote, and what stands in front of the field, behind the field, behind the operator and at the
end. -/
structure Quoting where
  spelling : List Char
  quote : Char
  front : List Char
  behindField : List Char
  behindOperator : List Char
  back : List Char

/-- Whether a way of writing fits an operator: the spelling is one of the operator, the quote is a
quote and the rest is blank. -/
structure Quoting.Fits (q : Quoting) (operator : Operator) : Prop where
  spelling : (q.spelling, operator) ∈ Operator.spellings
  quote : q.quote ∈ quotes
  front : ∀ ch ∈ q.front, Text.isBlank ch = true
  behindField : ∀ ch ∈ q.behindField, Text.isBlank ch = true
  behindOperator : ∀ ch ∈ q.behindOperator, Text.isBlank ch = true
  back : ∀ ch ∈ q.back, Text.isBlank ch = true

/-- A condition written with quotes around its literal. -/
def Condition.quoted (c : Condition) (q : Quoting) : List Char :=
  q.front ++ (c.field.toList ++ (q.behindField ++ (q.spelling ++
    (q.behindOperator ++ (q.quote :: (c.literal.toList ++ [q.quote]) ++ q.back)))))

/-! ## Blanks at the ends -/

namespace Text

theorem isBlank_of_trim_cons {s t : List Char} {c : Char} (h : trim s = c :: t) :
    isBlank c = false := by
  have hprefix : trim s <+: trimLeft s := List.rdropWhile_prefix isBlank (trimLeft s)
  obtain ⟨rest, hrest⟩ := h ▸ hprefix
  have hhead := List.head?_dropWhile_not isBlank s
  rw [← trimLeft, ← hrest, List.cons_append, List.head?_cons] at hhead
  simpa using hhead

theorem trim_subset (s : List Char) : trim s ⊆ s := fun _ hc =>
  (List.dropWhile_sublist isBlank).subset
    ((List.rdropWhile_prefix isBlank (trimLeft s)).subset hc)

/-- What is cut from the end of a text is blank. -/
theorem exists_trimRight_append (s : List Char) :
    ∃ b, (∀ c ∈ b, isBlank c = true) ∧ s = trimRight s ++ b :=
  ⟨s.rtakeWhile isBlank, fun _ => List.mem_rtakeWhile_imp,
    List.rdropWhile_append_rtakeWhile.symm⟩

theorem trim_trimRight (s : List Char) : trim (trimRight s) = trim s := by
  obtain ⟨b, hb, hs⟩ := exists_trimRight_append s
  conv_rhs => rw [hs]
  exact (trim_append_blank _ hb).symm

theorem trimRight_concat {c : Char} (h : isBlank c = false) (s : List Char) :
    trimRight (s ++ [c]) = s ++ [c] :=
  List.rdropWhile_concat_neg isBlank s c (by rw [h]; exact Bool.false_ne_true)

/-- Where one part of a text ends with a character that is not blank, blanks are cut from the part
behind it only. -/
theorem trimRight_append {c : Char} (h : isBlank c = false) (s t : List Char) :
    trimRight (s ++ [c] ++ t) = s ++ [c] ++ trimRight t := by
  induction t using List.reverseRecOn with
  | nil => rw [List.append_nil, trimRight_concat h]; exact (List.append_nil _).symm
  | append_singleton t d ih =>
    rw [← List.append_assoc]
    cases hd : isBlank d with
    | true =>
      rw [trimRight_append_blank _ (List.forall_mem_singleton.2 hd), ih,
        trimRight_append_blank _ (List.forall_mem_singleton.2 hd)]
    | false => rw [trimRight_concat hd, trimRight_concat hd, ← List.append_assoc]

end Text

/-! ## Operators -/

namespace Operator

theorem length_spelling_le : ∀ entry ∈ spellings, entry.1.length ≤ 2 := by decide

theorem eq_of_spelling_eq : ∀ entry ∈ spellings, ∀ other ∈ spellings, entry.1 = other.1 →
    entry.2 = other.2 := by decide

theorem exists_sign_of_mem {spelling : List Char} {operator : Operator}
    (h : (spelling, operator) ∈ spellings) : ∃ sign ∈ signs, ∃ rest, spelling = sign :: rest := by
  simp only [spellings, List.mem_cons, Prod.mk.injEq, List.not_mem_nil, or_false] at h
  rcases h with h | h | h | h | h | h | h | h | h | h <;>
    exact ⟨_, by rw [signs]; decide, _, h.1⟩

theorem mem_signs_of_mem : ∀ entry ∈ spellings, ∀ c ∈ entry.1, c ∈ signs := by
  simp [spellings, signs]

theorem isBlank_of_mem_signs : ∀ sign ∈ signs, Text.isBlank sign = false := by
  simp [signs, Text.isBlank]

theorem notMem_signs_of_isBlank {c : Char} (h : Text.isBlank c = true) : c ∉ signs := by
  intro hsign
  rw [isBlank_of_mem_signs c hsign] at h
  cases h

theorem atStart_cons_eq_none_iff {c : Char} {rest : List Char} :
    atStart (c :: rest) = none ↔ c ∉ signs := by
  rw [atStart.eq_def]
  split <;> simp_all [signs]

/-- A spelling of two characters is the longest. -/
theorem isLongestAt_pair {a b : Char} {operator : Operator} (h : ([a, b], operator) ∈ spellings)
    (rest : List Char) : IsLongestAt (a :: b :: rest) operator rest :=
  ⟨[a, b], h, rfl, fun other hother _ => length_spelling_le other hother⟩

/-- A spelling is the longest, if it is none together with the next character. -/
theorem isLongestAt_append (spelling : List Char) {operator : Operator}
    (h : (spelling, operator) ∈ spellings) {rest : List Char}
    (hrest : ∀ b after, rest = b :: after → spelling ++ [b] ∉ spellings.map Prod.fst) :
    IsLongestAt (spelling ++ rest) operator rest := by
  refine ⟨spelling, h, rfl, fun other hother hprefix => ?_⟩
  obtain ⟨sign, -, more, rfl⟩ := exists_sign_of_mem h
  have hlength := length_spelling_le other hother
  by_contra hlonger
  rw [List.length_cons, Nat.not_le] at hlonger
  -- only a spelling of one character can be exceeded, and by one character
  obtain rfl : more = [] := List.length_eq_zero_iff.1 (by omega)
  match hspelling : other.1, hprefix with
  | [], _ => simp [hspelling] at hlonger
  | [_], _ => simp [hspelling] at hlonger
  | [c, b], ⟨after, heq⟩ =>
    obtain ⟨rfl, hrest'⟩ := List.cons.inj heq
    exact hrest b after hrest'.symm (List.mem_map.2 ⟨other, hother, hspelling⟩)
  | _ :: _ :: _ :: _, _ => simp [hspelling] at hlength

theorem isLongestAt_of_atStart {s rest : List Char} {operator : Operator}
    (h : atStart s = some (operator, rest)) : IsLongestAt s operator rest := by
  rw [atStart.eq_def] at h
  split at h <;> cases h
  · exact isLongestAt_pair (by decide) rest
  · exact isLongestAt_pair (by decide) rest
  · exact isLongestAt_pair (by decide) rest
  · exact isLongestAt_pair (by decide) rest
  · exact isLongestAt_pair (by decide) rest
  · exact isLongestAt_append ['='] (by decide) fun b _ _ => by simp [spellings]
  · exact isLongestAt_append [':'] (by decide) fun b _ _ => by simp [spellings]
  · rename_i hequal
    refine isLongestAt_append ['!'] (by decide) fun b after heq => ?_
    have hb : b ≠ '=' := fun hb => hequal after (hb ▸ heq)
    simpa [spellings] using hb
  · rename_i hequal hcolon
    refine isLongestAt_append ['>'] (by decide) fun b after heq => ?_
    have hb : b ≠ '=' := fun hb => hequal after (hb ▸ heq)
    have hb' : b ≠ ':' := fun hb => hcolon after (hb ▸ heq)
    simpa [spellings] using ⟨hb, hb'⟩
  · rename_i hequal hcolon
    refine isLongestAt_append ['<'] (by decide) fun b after heq => ?_
    have hb : b ≠ '=' := fun hb => hequal after (hb ▸ heq)
    have hb' : b ≠ ':' := fun hb => hcolon after (hb ▸ heq)
    simpa [spellings] using ⟨hb, hb'⟩

/-- Only one operator is the longest at a place. -/
theorem IsLongestAt.unique {s rest rest' : List Char} {operator operator' : Operator}
    (h : IsLongestAt s operator rest) (h' : IsLongestAt s operator' rest') :
    operator = operator' ∧ rest = rest' := by
  obtain ⟨spelling, hmem, hsplit, hlongest⟩ := h
  obtain ⟨spelling', hmem', hsplit', hlongest'⟩ := h'
  have hlength : spelling.length = spelling'.length :=
    Nat.le_antisymm (hlongest' _ hmem ⟨rest, hsplit⟩) (hlongest _ hmem' ⟨rest', hsplit'⟩)
  obtain ⟨rfl, rfl⟩ := List.append_inj (hsplit.trans hsplit'.symm) hlength
  exact ⟨eq_of_spelling_eq _ hmem _ hmem' rfl, rfl⟩

/-- Of the operators that a text starts with, the longest is taken. -/
theorem atStart_eq_some_iff {s rest : List Char} {operator : Operator} :
    atStart s = some (operator, rest) ↔ IsLongestAt s operator rest := by
  refine ⟨isLongestAt_of_atStart, fun h => ?_⟩
  obtain ⟨spelling, hmem, rfl, -⟩ := id h
  obtain ⟨sign, hsign, after, rfl⟩ := exists_sign_of_mem hmem
  cases hfound : atStart (sign :: (after ++ rest)) with
  | none => exact absurd hsign (atStart_cons_eq_none_iff.1 hfound)
  | some found =>
    obtain ⟨rfl, rfl⟩ := (isLongestAt_of_atStart hfound).unique h
    exact hfound

/-- An operator is read as it is spelled, if no sign follows that could make it longer. -/
theorem atStart_append {spelling : List Char} {operator : Operator}
    (h : (spelling, operator) ∈ spellings) {rest : List Char}
    (hrest : ∀ c ∈ rest.head?, c ∉ signs) :
    atStart (spelling ++ rest) = some (operator, rest) := by
  refine atStart_eq_some_iff.2 (isLongestAt_append _ h fun b after heq hmem => ?_)
  obtain ⟨entry, hentry, hspelling⟩ := List.mem_map.1 hmem
  exact hrest b (heq ▸ rfl) (mem_signs_of_mem entry hentry b (by simp [hspelling]))

end Operator

/-! ## Cutting at the first sign -/

theorem splitAtOperator_eq (s : List Char) :
    splitAtOperator s =
      (Operator.atStart (fromSign s)).map fun found => (beforeSign s, found) := by
  induction s with
  | nil => rfl
  | cons c rest ih =>
    rw [splitAtOperator]
    by_cases hsign : c ∈ Operator.signs
    · have hfrom : fromSign (c :: rest) = c :: rest := by simp [fromSign, hsign]
      have hbefore : beforeSign (c :: rest) = [] := by simp [beforeSign, hsign]
      rw [hfrom, hbefore]
      cases hfound : Operator.atStart (c :: rest) with
      | none => exact absurd hsign (Operator.atStart_cons_eq_none_iff.1 hfound)
      | some found => rfl
    · have hfrom : fromSign (c :: rest) = fromSign rest := by simp [fromSign, hsign]
      have hbefore : beforeSign (c :: rest) = c :: beforeSign rest := by
        simp [beforeSign, hsign]
      rw [Operator.atStart_cons_eq_none_iff.2 hsign, hfrom, hbefore, ih, Option.map_map]
      rfl

theorem atStart_fromSign_eq_none_iff {s : List Char} :
    Operator.atStart (fromSign s) = none ↔ ∀ c ∈ s, c ∉ Operator.signs := by
  cases hfrom : fromSign s with
  | nil =>
    refine iff_of_true rfl ?_
    simpa [fromSign] using hfrom
  | cons c rest =>
    have hhead := List.head?_dropWhile_not (fun c => !Operator.signs.contains c) s
    rw [← fromSign, hfrom, List.head?_cons] at hhead
    have hsign : c ∈ Operator.signs := by simpa using hhead
    have hmem : c ∈ s := (List.dropWhile_sublist _).subset (hfrom ▸ List.mem_cons_self)
    exact iff_of_false (fun h => Operator.atStart_cons_eq_none_iff.1 h hsign)
      fun h => h c hmem hsign

theorem beforeSign_append {s t : List Char} (h : ∀ c ∈ s, c ∉ Operator.signs) :
    beforeSign (s ++ t) = s ++ beforeSign t :=
  List.takeWhile_append_of_pos fun c hc => by simpa using h c hc

theorem fromSign_append {s t : List Char} (h : ∀ c ∈ s, c ∉ Operator.signs) :
    fromSign (s ++ t) = fromSign t :=
  List.dropWhile_append_of_pos fun c hc => by simpa using h c hc

/-! ## Quotes -/

theorem isBlank_of_mem_quotes : ∀ quote ∈ quotes, Text.isBlank quote = false := by
  simp [quotes, Text.isBlank]

theorem notMem_signs_of_mem_quotes : ∀ quote ∈ quotes, quote ∉ Operator.signs := by
  simp [quotes, Operator.signs]

theorem unquote_quoted {quote : Char} (h : quote ∈ quotes) (inner : List Char) :
    unquote (quote :: (inner ++ [quote])) = inner := by
  have hquote : quote = '"' ∨ quote = '\x27' := by simpa [quotes] using h
  rw [unquote, if_pos (by simpa using hquote), List.dropLast_concat]

theorem unquote_of_forall {s : List Char}
    (h : ∀ quote ∈ quotes, ∀ inner, s ≠ quote :: (inner ++ [quote])) : unquote s = s := by
  cases s with
  | nil => rfl
  | cons quote rest =>
    refine if_neg fun hpair => ?_
    simp only [Bool.and_eq_true, Bool.or_eq_true, beq_iff_eq] at hpair
    obtain ⟨hquote, hlast⟩ := hpair
    have hrest : rest = rest.dropLast ++ [quote] := by
      obtain ⟨inner, rfl⟩ := List.getLast?_eq_some_iff.1 hlast
      rw [List.dropLast_concat]
    exact h quote (by simpa [quotes] using hquote) _ (congrArg _ hrest)

/-- One pair of equal quotes around a text is taken off, and nothing else. -/
theorem unquotes_iff {s t : List Char} : Unquotes s t ↔ unquote s = t := by
  constructor
  · rintro (hquote | hplain)
    · exact unquote_quoted hquote t
    · exact unquote_of_forall hplain
  · rintro rfl
    by_cases hplain : ∀ quote ∈ quotes, ∀ inner, s ≠ quote :: (inner ++ [quote])
    · rw [unquote_of_forall hplain]
      exact .plain hplain
    · push Not at hplain
      obtain ⟨quote, hquote, inner, rfl⟩ := hplain
      rw [unquote_quoted hquote]
      exact .quoted hquote

/-! ## Reading conditions -/

namespace Condition

/-- The part before the first sign of a text without blanks at its ends does not get empty when
blanks are cut from it. -/
theorem trim_beforeSign_eq_nil_iff {s : List Char} :
    Text.trim (beforeSign (Text.trim s)) = [] ↔ beforeSign (Text.trim s) = [] := by
  refine ⟨fun h => ?_, fun h => by rw [h]; rfl⟩
  cases hbefore : beforeSign (Text.trim s) with
  | nil => rfl
  | cons c rest =>
    have hfirst : Text.isBlank c = false := by
      have hsplit : Text.trim s = c :: (rest ++ fromSign (Text.trim s)) := by
        rw [← List.cons_append, ← hbefore]
        exact List.takeWhile_append_dropWhile.symm
      exact Text.isBlank_of_trim_cons hsplit
    rw [hbefore, Text.trim, Text.trimLeft_cons hfirst, ← List.singleton_append,
      ← List.nil_append [c], Text.trimRight_append hfirst] at h
    cases h

/-- A text is the condition that its parts say, if there are a field and a sign. -/
theorem ofText_eq_ok_iff {s : String} {c : Condition} :
    ofText s = .ok c ↔ c.IsReadingOf (Text.trim s.toList) := by
  rw [ofText, splitAtOperator_eq]
  cases hfound : Operator.atStart (fromSign (Text.trim s.toList)) with
  | none =>
    refine iff_of_false nofun fun h => ?_
    obtain ⟨rest, hlongest, -⟩ := h.literal
    rw [Operator.atStart_eq_some_iff.2 hlongest] at hfound
    cases hfound
  | some found =>
    obtain ⟨operator, rest⟩ := found
    have hlongest := Operator.atStart_eq_some_iff.1 hfound
    simp only [Option.map_some, List.isEmpty_iff, trim_beforeSign_eq_nil_iff]
    split
    · rename_i hempty
      exact iff_of_false nofun fun h => h.named hempty
    · rename_i hnamed
      constructor
      · intro h
        obtain rfl := Except.ok.inj h
        exact ⟨hnamed, by rw [String.toList_ofList], rest, hlongest,
          unquotes_iff.2 (by rw [String.toList_ofList])⟩
      · rintro ⟨-, hfield, rest', hlongest', hliteral⟩
        obtain ⟨hoperator, rfl⟩ := hlongest.unique hlongest'
        obtain ⟨field, operator', literal⟩ := c
        obtain rfl : operator = operator' := hoperator
        rw [← hfield, unquotes_iff.1 hliteral, String.ofList_toList, String.ofList_toList]

/-- A text is refused iff no sign is in it or nothing stands before the first one. -/
theorem exists_ofText_iff {s : String} :
    (∃ c, ofText s = .ok c) ↔
      (∃ ch ∈ Text.trim s.toList, ch ∈ Operator.signs) ∧ beforeSign (Text.trim s.toList) ≠ [] := by
  rw [ofText, splitAtOperator_eq]
  cases hfound : Operator.atStart (fromSign (Text.trim s.toList)) with
  | none =>
    have hnone := atStart_fromSign_eq_none_iff.1 hfound
    refine iff_of_false (by rintro ⟨c, hc⟩; cases hc) ?_
    rintro ⟨⟨ch, hch, hsign⟩, -⟩
    exact hnone ch hch hsign
  | some found =>
    have hsign : ∃ ch ∈ Text.trim s.toList, ch ∈ Operator.signs := by
      by_contra hnone
      push Not at hnone
      rw [atStart_fromSign_eq_none_iff.2 hnone] at hfound
      cases hfound
    rw [and_iff_right hsign]
    simp only [Option.map_some, List.isEmpty_iff, trim_beforeSign_eq_nil_iff]
    split <;> simp_all

theorem eq_of_ofText_eq_error {s : String} {fault : MalformedText}
    (h : ofText s = .error fault) : fault = ⟨s⟩ := by
  rw [ofText] at h
  split at h
  · exact (Except.error.inj h).symm
  · simp only at h
    split at h
    · exact (Except.error.inj h).symm
    · cases h

/-! ## Written conditions -/

theorem HasPlainField.isBlank_head {c : Condition} (h : c.HasPlainField) {first : Char}
    {rest : List Char} (hcons : c.field.toList = first :: rest) : Text.isBlank first = false :=
  Text.isBlank_of_trim_cons (h.trimmed.trans hcons)

/-- Blanks are cut from the front of a field and from what is behind an operator. -/
theorem trim_parts {c : Condition} (hc : c.HasPlainField) {front behindField spelling : List Char}
    (hfront : ∀ ch ∈ front, Text.isBlank ch = true)
    (hspelling : (spelling, c.operator) ∈ Operator.spellings) (tail : List Char) :
    Text.trim (front ++ (c.field.toList ++ (behindField ++ (spelling ++ tail)))) =
      c.field.toList ++ (behindField ++ (spelling ++ Text.trimRight tail)) := by
  obtain ⟨first, rest, hcons⟩ := List.exists_cons_of_ne_nil hc.ne_nil
  obtain ⟨sign, -, more, hsigns⟩ := Operator.exists_sign_of_mem hspelling
  have hne : spelling ≠ [] := hsigns ▸ List.cons_ne_nil sign more
  have hlast : Text.isBlank (spelling.getLast hne) = false :=
    Operator.isBlank_of_mem_signs _
      (Operator.mem_signs_of_mem _ hspelling _ (List.getLast_mem hne))
  have hsplit : ∀ t, c.field.toList ++ (behindField ++ (spelling ++ t)) =
      (c.field.toList ++ behindField ++ spelling.dropLast) ++ [spelling.getLast hne] ++ t := by
    intro t
    conv_lhs => rw [← List.dropLast_concat_getLast hne]
    simp only [List.append_assoc]
  rw [Text.trim_blank_append hfront, Text.trim]
  have hkeep : Text.trimLeft (c.field.toList ++ (behindField ++ (spelling ++ tail))) =
      c.field.toList ++ (behindField ++ (spelling ++ tail)) := by
    rw [hcons, List.cons_append, Text.trimLeft_cons (hc.isBlank_head hcons)]
  rw [hkeep, hsplit, Text.trimRight_append hlast, ← hsplit]

/-- The parts of a text are read apart: blanks, a field, blanks, an operator and what is behind it,
if that does not make the operator longer. -/
theorem ofText_parts {c : Condition} (hc : c.HasPlainField) {front behindField spelling : List Char}
    (hfront : ∀ ch ∈ front, Text.isBlank ch = true)
    (hbehind : ∀ ch ∈ behindField, Text.isBlank ch = true)
    (hspelling : (spelling, c.operator) ∈ Operator.spellings) {tail : List Char}
    (htail : ∀ ch ∈ tail.head?, ch ∉ Operator.signs) :
    ofText (String.ofList (front ++ (c.field.toList ++ (behindField ++ (spelling ++ tail))))) =
      .ok ⟨c.field, c.operator, String.ofList (unquote (Text.trim tail))⟩ := by
  have hunsigned : ∀ ch ∈ behindField, ch ∉ Operator.signs := fun ch hch =>
    Operator.notMem_signs_of_isBlank (hbehind ch hch)
  obtain ⟨sign, hsign, more, hcons⟩ := Operator.exists_sign_of_mem hspelling
  have hbefore : beforeSign (spelling ++ Text.trimRight tail) = [] := by
    simp [beforeSign, hcons, hsign]
  have hfrom : fromSign (spelling ++ Text.trimRight tail) = spelling ++ Text.trimRight tail := by
    simp [fromSign, hcons, hsign]
  have hhead : ∀ ch ∈ (Text.trimRight tail).head?, ch ∉ Operator.signs := by
    obtain ⟨b, -, hb⟩ := Text.exists_trimRight_append tail
    refine fun ch hch => htail ch ?_
    rw [hb, List.head?_append, Option.mem_def.1 hch]
    rfl
  rw [ofText_eq_ok_iff, String.toList_ofList, trim_parts hc hfront hspelling]
  refine ⟨?_, ?_, Text.trimRight tail, ?_, ?_⟩
  · rw [beforeSign_append hc.unsigned]
    exact List.append_ne_nil_of_left_ne_nil hc.ne_nil _
  · rw [beforeSign_append hc.unsigned, beforeSign_append hunsigned, hbefore, List.append_nil,
      Text.trim_append_blank _ hbehind, hc.trimmed]
  · rw [fromSign_append hc.unsigned, fromSign_append hunsigned, hfrom,
      ← Operator.atStart_eq_some_iff]
    exact Operator.atStart_append hspelling hhead
  · rw [Text.trim_trimRight, unquotes_iff, String.toList_ofList]

/-- A quoted literal is what is between its quotes, whatever that is. -/
theorem unquote_trim_quoted {quote : Char} (h : quote ∈ quotes) {front back : List Char}
    (hfront : ∀ ch ∈ front, Text.isBlank ch = true) (hback : ∀ ch ∈ back, Text.isBlank ch = true)
    (inner : List Char) :
    unquote (Text.trim (front ++ (quote :: (inner ++ [quote]) ++ back))) = inner := by
  have hquote := isBlank_of_mem_quotes quote h
  rw [Text.trim_blank_append hfront, Text.trim_append_blank _ hback, Text.trim,
    Text.trimLeft_cons hquote, ← List.cons_append, Text.trimRight_concat hquote, List.cons_append,
    unquote_quoted h]

/-- No sign follows an operator in a written condition, so nothing makes the operator longer. -/
theorem notMem_signs_of_head {operator : Operator} {q : Quoting} (hq : q.Fits operator)
    (s : List Char) : ∀ ch ∈ (q.behindOperator ++ q.quote :: s).head?, ch ∉ Operator.signs := by
  intro ch hch
  cases hfirst : q.behindOperator with
  | nil =>
    obtain rfl : q.quote = ch := by simpa [hfirst] using hch
    exact notMem_signs_of_mem_quotes _ hq.quote
  | cons b rest =>
    obtain rfl : b = ch := by simpa [hfirst] using hch
    exact Operator.notMem_signs_of_isBlank (hq.behindOperator b (hfirst ▸ List.mem_cons_self))

/-- A condition with a plain field is read back, in whatever way it is written with quotes. -/
theorem ofText_quoted {c : Condition} (hc : c.HasPlainField) {q : Quoting}
    (hq : q.Fits c.operator) : ofText (String.ofList (c.quoted q)) = .ok c := by
  refine (ofText_parts hc hq.front hq.behindField hq.spelling
    (notMem_signs_of_head hq (c.literal.toList ++ [q.quote] ++ q.back))).trans ?_
  rw [← List.cons_append, unquote_trim_quoted hq.quote hq.behindOperator hq.back,
    String.ofList_toList]

/-! ## The grammar of conditions -/

/-- Whether a text is read by the grammar of conditions: it is one iff it holds a sign with
something before the first one, it then says a field without signs, the longest operator and a
literal, and a condition written with quotes is what it says. -/
structure IsParsed (s : String) : Prop where
  accepted_iff : (∃ c, ofText s = .ok c) ↔
    (∃ ch ∈ Text.trim s.toList, ch ∈ Operator.signs) ∧ beforeSign (Text.trim s.toList) ≠ []
  refused : ∀ fault, ofText s = .error fault → fault = ⟨s⟩
  reading_iff : ∀ c, ofText s = .ok c ↔ c.IsReadingOf (Text.trim s.toList)
  unsigned : ∀ c, ofText s = .ok c → ∀ ch ∈ c.field.toList, ch ∉ Operator.signs
  quoted : ∀ (c : Condition) (q : Quoting), c.HasPlainField → q.Fits c.operator →
    s.toList = c.quoted q → ofText s = .ok c

/-- Every text is read by the grammar. -/
theorem isParsed (s : String) : IsParsed s where
  accepted_iff := exists_ofText_iff
  refused _ := eq_of_ofText_eq_error
  reading_iff _ := ofText_eq_ok_iff
  unsigned c hc ch hch := by
    have hbefore : ch ∈ beforeSign (Text.trim s.toList) := by
      rw [(ofText_eq_ok_iff.1 hc).field] at hch
      exact Text.trim_subset _ hch
    simpa using List.mem_takeWhile_imp hbefore
  quoted c q hc hq hs := by
    rw [← ofText_quoted hc hq, ← hs, String.ofList_toList]

example : Condition.ofText " from.label >= '= \"a\" ' " =
    .ok ⟨"from.label", .greaterOrEqual, "= \"a\" "⟩ := by decide +kernel

end Condition

end FactCube
