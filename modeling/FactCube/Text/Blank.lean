/-!
# Blank characters

The characters that separate words and are cut from both ends of a text before it is read: exactly
those with the Unicode property White_Space.

Results:
* `trim_append_blank`, `trim_blank_append`: blanks at an end of a text do not change what is left of
  it.
-/

namespace FactCube.Text

/-! ## The class -/

/-- The characters with the Unicode property White_Space. -/
def isBlank (c : Char) : Bool :=
  let n := c.toNat
  (9 ≤ n && n ≤ 13) || n == 0x20 || n == 0x85 || n == 0xA0 || n == 0x1680 ||
    (0x2000 ≤ n && n ≤ 0x200A) || n == 0x2028 || n == 0x2029 || n == 0x202F || n == 0x205F ||
    n == 0x3000

/-! ## Cutting blanks -/

/-- The text without the blanks at its start. -/
def trimLeft (s : List Char) : List Char := s.dropWhile isBlank

/-- The text without the blanks at its end. -/
def trimRight (s : List Char) : List Char := (s.reverse.dropWhile isBlank).reverse

/-- The text without the blanks at its two ends. -/
def trim (s : List Char) : List Char := trimRight (trimLeft s)

/-- The string without the blanks at its two ends. -/
def trimmed (s : String) : String := String.ofList (trim s.toList)

/-- Whether nothing is left of the string once the blanks at its ends are cut. -/
def isBlankText (s : String) : Bool := s.toList.all isBlank

/-! ## Small lemmas -/

theorem trimRight_append_blank (s : List Char) {b : List Char} (hb : ∀ c ∈ b, isBlank c = true) :
    trimRight (s ++ b) = trimRight s := by
  unfold trimRight
  rw [List.reverse_append, List.dropWhile_append_of_pos]
  intro c hc
  exact hb c (List.mem_reverse.1 hc)

theorem trimLeft_blank_append {b : List Char} (hb : ∀ c ∈ b, isBlank c = true) (s : List Char) :
    trimLeft (b ++ s) = trimLeft s := by
  unfold trimLeft
  exact List.dropWhile_append_of_pos hb

/-- Blanks in front of a text do not change what is left of it. -/
theorem trim_blank_append {b : List Char} (hb : ∀ c ∈ b, isBlank c = true) (s : List Char) :
    trim (b ++ s) = trim s := by
  rw [trim, trimLeft_blank_append hb, trim]

/-- Blanks behind a text do not change what is left of it. -/
theorem trim_append_blank (s : List Char) {b : List Char} (hb : ∀ c ∈ b, isBlank c = true) :
    trim (s ++ b) = trim s := by
  rw [trim, trim, trimLeft, trimLeft, List.dropWhile_append]
  split
  · rename_i hempty
    have hnil : b.dropWhile isBlank = [] := List.append_nil b ▸ trimLeft_blank_append hb []
    rw [hnil, List.isEmpty_iff.1 hempty]
  · exact trimRight_append_blank _ hb

end FactCube.Text
