import FactCube.Text.Blank

/-!
# Cutting text at a character

The small syntaxes of the query language are cut at one character: at its first occurrence, at its
last, or at every one. Letter case, where it does not count, is folded for the letters A to Z only.

Results:
* `append_of_splitFirst`: the two halves of a cut, with the character between them, are the text.
* `not_mem_of_splitFirst`: the first half does not hold the character.
* `splitFirst_append`: a text without the character, put before it, is the first half of the cut.
-/

namespace FactCube.Text

/-! ## One cut -/

/-- The text before and after the first `sep`, if there is one. -/
def splitFirst (sep : Char) : List Char → Option (List Char × List Char)
  | [] => none
  | c :: rest =>
    if c == sep then some ([], rest)
    else (splitFirst sep rest).map fun (before, after) => (c :: before, after)

/-- The text before and after the last `sep`, if there is one. -/
def splitLast (sep : Char) (s : List Char) : Option (List Char × List Char) :=
  (splitFirst sep s.reverse).map fun (after, before) => (before.reverse, after.reverse)

theorem append_of_splitFirst {sep : Char} {s before after : List Char}
    (h : splitFirst sep s = some (before, after)) : before ++ sep :: after = s := by
  induction s generalizing before with
  | nil => simp [splitFirst] at h
  | cons c rest ih =>
    rw [splitFirst] at h
    split at h
    · simp_all
    · obtain ⟨⟨b, a⟩, hb, heq⟩ := Option.map_eq_some_iff.1 h
      simp only [Prod.mk.injEq] at heq
      obtain ⟨rfl, rfl⟩ := heq
      simp [ih hb]

theorem not_mem_of_splitFirst {sep : Char} {s before after : List Char}
    (h : splitFirst sep s = some (before, after)) : sep ∉ before := by
  induction s generalizing before with
  | nil => simp [splitFirst] at h
  | cons c rest ih =>
    rw [splitFirst] at h
    split at h
    · simp_all
    · rename_i hne
      obtain ⟨⟨b, a⟩, hb, heq⟩ := Option.map_eq_some_iff.1 h
      simp only [Prod.mk.injEq] at heq
      obtain ⟨rfl, rfl⟩ := heq
      simp only [List.mem_cons, not_or]
      exact ⟨fun e => hne (by simp [e]), ih hb⟩

theorem splitFirst_of_notMem {sep : Char} {s : List Char} (h : sep ∉ s) :
    splitFirst sep s = none := by
  induction s with
  | nil => rfl
  | cons c rest ih =>
    simp only [List.mem_cons, not_or] at h
    rw [splitFirst, if_neg (by simpa using Ne.symm h.1), ih h.2]
    rfl

theorem splitFirst_append {sep : Char} {before : List Char} (h : sep ∉ before)
    (after : List Char) : splitFirst sep (before ++ sep :: after) = some (before, after) := by
  induction before with
  | nil => simp [splitFirst]
  | cons c before ih =>
    simp only [List.mem_cons, not_or] at h
    rw [List.cons_append, splitFirst, if_neg (by simpa using Ne.symm h.1), ih h.2]
    rfl

theorem not_mem_of_splitFirst_eq_none {sep : Char} {s : List Char}
    (h : splitFirst sep s = none) : sep ∉ s := by
  intro hmem
  obtain ⟨before, after, rfl, hbefore⟩ := List.eq_append_cons_of_mem hmem
  rw [splitFirst_append hbefore] at h
  cases h

/-! ## Every cut -/

/-- The pieces between the occurrences of `sep`; a text without one is its only piece. -/
def splitAll (sep : Char) : List Char → List (List Char)
  | [] => [[]]
  | c :: rest =>
    if c == sep then [] :: splitAll sep rest
    else match splitAll sep rest with
      | piece :: pieces => (c :: piece) :: pieces
      | [] => [[c]]

/-! ## Letter case -/

/-- The text with A to Z folded to a to z. -/
def lowered (s : String) : String := String.ofList (s.toList.map Char.toLower)

/-- Whether two texts are the same up to the case of A to Z. -/
def sameLetters (a b : String) : Bool := lowered a == lowered b

/-! ## Joining -/

/-- The texts one after the other with `sep` between neighbours. -/
def joined (sep : String) : List String → String
  | [] => ""
  | [s] => s
  | s :: rest => s ++ sep ++ joined sep rest

end FactCube.Text
