import FactCube.Proofs.DayFormats
import FactCube.Proofs.Facts

/-!
# Values that read back

What is read from a text is displayed as a text from which the same value is read again, for every
datatype. So two values that were read as one datatype and are displayed alike are the same. Numbers
are displayed by the shortest decimal, which reads back; dates by digits of a fixed width, so that
the three precisions have different shapes.

Results:
* `Period.ofText?_text`: a period is read back from its label.
* `Value.reads_display`: a value is read back from its display, and the values that are read as a
  datatype are its cells.
* `Value.eq_of_display_eq`: values of one datatype that are displayed alike are the same.
-/

namespace FactCube

open Decimal

/-! ## Periods -/

namespace Period

/-- Whether a period is one that a text can stand for: a year or a month is given by its first day,
and its year has four digits. -/
structure IsPlain (p : Period) : Prop where
  year : p.granularity ≠ .day → 0 ≤ p.date.year ∧ p.date.year ≤ 9999
  month : p.granularity = .year → p.date.month = 1
  day : p.granularity ≠ .day → p.date.day = 1

theorem range_of_digits {digits : List Char} (hlength : digits.length = 4)
    (h : ∀ c ∈ digits, isDigit c = true) :
    (0 : Int) ≤ digitsValue digits ∧ (digitsValue digits : Int) ≤ 9999 := by
  have hlt := digitsValue_lt h
  rw [hlength] at hlt
  omega

theorem range_of_year4? {s : List Char} {year : Int} (h : year4? s = some year) :
    0 ≤ year ∧ year ≤ 9999 := by
  rw [year4?] at h
  split at h
  · rename_i hshape
    rw [Bool.and_eq_true, beq_iff_eq, List.all_eq_true] at hshape
    rw [Option.some.injEq] at h
    rw [← h]
    exact range_of_digits hshape.1 hshape.2
  · cases h

theorem range_of_yearAndMonth? {s : List Char} {year : Int} {month : Nat}
    (h : yearAndMonth? s = some (year, month)) : 0 ≤ year ∧ year ≤ 9999 := by
  rw [yearAndMonth?] at h
  split at h
  · cases h
  · rename_i before after _
    split at h
    · rename_i hshape
      simp only [Bool.and_eq_true, beq_iff_eq, List.all_eq_true, List.mem_append] at hshape
      rw [Option.some.injEq, Prod.mk.injEq] at h
      rw [← h.1]
      exact range_of_digits hshape.1.1 fun c hc => hshape.2 c (.inl hc)
    · cases h

/-- A period that was read has a label from which it can be read. -/
theorem isPlain_of_readPeriod {s : List Char} {p : Period} (h : readPeriod s = some p) :
    p.IsPlain := by
  rw [readPeriod] at h
  split at h
  · rename_i year hfound
    obtain ⟨date, hdate, rfl⟩ := Option.map_eq_some_iff.1 h
    obtain ⟨rfl, hmonth, hday⟩ := Date.ofParts?_eq_some_iff.1 hdate
    exact ⟨fun _ => range_of_year4? hfound, fun _ => hmonth, fun _ => hday⟩
  · split at h
    · rename_i year month hfound
      obtain ⟨date, hdate, rfl⟩ := Option.map_eq_some_iff.1 h
      obtain ⟨rfl, -, hday⟩ := Date.ofParts?_eq_some_iff.1 hdate
      exact ⟨fun _ => range_of_yearAndMonth? hfound, (fun h => by cases h), fun _ => hday⟩
    · obtain ⟨date, -, rfl⟩ := Option.map_eq_some_iff.1 h
      exact ⟨fun hne => absurd rfl hne, (fun h => by cases h), fun hne => absurd rfl hne⟩

theorem yearLabel_eq {p : Period} (h : 0 ≤ p.date.year) :
    p.yearLabel.toList = padded 4 p.date.year.natAbs := by
  rw [yearLabel, FactCube.yearLabel, if_neg (by omega), String.toList_ofList]

theorem year4?_padded {n : Nat} (h : n ≤ 9999) : year4? (padded 4 n) = some (n : Int) := by
  have hlength : (padded 4 n).length = 4 := length_padded (by decide) (by omega)
  rw [year4?, if_pos, digitsValue_padded]
  rw [Bool.and_eq_true, beq_iff_eq, List.all_eq_true]
  exact ⟨hlength, isDigit_of_mem_padded⟩

theorem yearAndMonth?_padded {year month : Nat} (hyear : year ≤ 9999) (hmonth : month ≤ 12) :
    yearAndMonth? (padded 4 year ++ '-' :: padded 2 month) = some ((year : Int), month) := by
  have hdash : '-' ∉ padded 4 year := fun hmem =>
    ne_of_isDigit (isDigit_of_mem_padded _ hmem) (by decide) rfl
  have hlength : (padded 4 year).length = 4 := length_padded (by decide) (by omega)
  have hlength' : (padded 2 month).length = 2 := length_padded (by decide) (by omega)
  rw [yearAndMonth?, Text.splitFirst_append hdash]
  simp only
  rw [if_pos, digitsValue_padded, digitsValue_padded]
  simp only [hlength, hlength', beq_self_eq_true, Bool.or_true, Bool.and_self, Bool.true_and,
    List.all_eq_true]
  exact List.forall_mem_append.2 ⟨isDigit_of_mem_padded, isDigit_of_mem_padded⟩

theorem toList_monthLabel {p : Period} (h : 0 ≤ p.date.year) :
    p.monthLabel.toList = padded 4 p.date.year.natAbs ++ '-' :: padded 2 p.date.month := by
  rw [monthLabel, String.toList_append, yearLabel_eq h, String.toList_ofList]

/-- A day is labelled in the first of its formats. -/
theorem toList_text_day (d : Date) : d.text.toList = d.written (yearFirst '-') := by
  rw [Date.text, String.toList_ofList, d.written_yearFirst, List.append_assoc, List.cons_append]

theorem yearFirst_mem_dayFormats : yearFirst '-' ∈ dayFormats := List.mem_cons_self

/-- A period is read back from its label. -/
theorem readPeriod_text {p : Period} (h : p.IsPlain) : readPeriod p.text.toList = some p := by
  obtain ⟨hyear, hmonth, hday⟩ := h
  rw [text]
  cases hprecision : p.granularity with
  | year =>
    have hne : p.granularity ≠ .day := by rw [hprecision]; decide
    obtain ⟨hlower, hupper⟩ := hyear hne
    simp only [readPeriod, yearLabel_eq hlower,
      year4?_padded (show p.date.year.natAbs ≤ 9999 by omega), Int.natAbs_of_nonneg hlower]
    rw [Date.ofParts?_eq_some_iff.2 ⟨rfl, hmonth hprecision, hday hne⟩, Option.map_some,
      ← hprecision]
  | month =>
    have hne : p.granularity ≠ .day := by rw [hprecision]; decide
    obtain ⟨hlower, hupper⟩ := hyear hne
    have hlong : (padded 4 p.date.year.natAbs ++ '-' :: padded 2 p.date.month).length ≠ 4 := by
      have hlength := le_length_padded 4 p.date.year.natAbs
      rw [List.length_append, List.length_cons]
      omega
    simp only [readPeriod, toList_monthLabel hlower, year4?_of_length hlong,
      yearAndMonth?_padded (show p.date.year.natAbs ≤ 9999 by omega) p.date.exists_day.2.2.2.1,
      Int.natAbs_of_nonneg hlower]
    rw [Date.ofParts?_eq_some_iff.2 ⟨rfl, rfl, hday hne⟩, Option.map_some, ← hprecision]
  | day =>
    simp only [toList_text_day, readPeriod_written yearFirst_mem_dayFormats]
    rw [← hprecision]

theorem isBlank_of_mem_text {p : Period} (h : p.IsPlain) :
    ∀ c ∈ p.text.toList, Text.isBlank c = false := by
  have hpadded : ∀ width n, ∀ c ∈ padded width n, Text.isBlank c = false :=
    fun _ _ c hc => isBlank_of_isDigit (isDigit_of_mem_padded c hc)
  have hdash : Text.isBlank '-' = false := by decide
  rw [text]
  cases hprecision : p.granularity with
  | year =>
    have hyear := h.year (by rw [hprecision]; decide)
    simp only [yearLabel_eq hyear.1]
    exact hpadded _ _
  | month =>
    have hyear := h.year (by rw [hprecision]; decide)
    simp only [toList_monthLabel hyear.1]
    exact List.forall_mem_append.2 ⟨hpadded _ _, List.forall_mem_cons.2 ⟨hdash, hpadded _ _⟩⟩
  | day =>
    simp only [toList_text_day]
    exact isBlank_of_mem_written yearFirst_mem_dayFormats p.date

/-- A period is read back from its label, at its own precision. -/
theorem ofText?_text {p : Period} (h : p.IsPlain) : ofText? p.text = some p := by
  rw [ofText?, Text.trim_of_forall (isBlank_of_mem_text h), readPeriod_text h]

end Period

/-! ## Values -/

namespace Value

theorem range_of_integer? {s : List Char} {n : Int} (h : integer? s = some n) :
    leastInteger ≤ n ∧ n ≤ greatestInteger := by
  simp only [integer?] at h
  split at h
  · cases h
  · obtain ⟨hrange, heq⟩ := Option.ite_none_right_eq_some.1 h
    rw [Option.some.injEq] at heq
    rw [← heq]
    exact hrange

/-- Whether a value is one that a text of a datatype can stand for. -/
def IsCell : DataType → Value → Prop
  | .string, .string _ => True
  | .integer, .integer n => leastInteger ≤ n ∧ n ≤ greatestInteger
  | .float, .float x => Binary64.isFinite x = true ∧ Binary64.unsignedZero x = x
  | .boolean, .boolean _ => True
  | .date, .date p => p.IsPlain
  | _, _ => False

/-- What is read is a cell of the datatype. -/
theorem isCell_of_ofText {datatype : DataType} {s : String} {v : Value}
    (h : ofText datatype s = .ok v) : v.IsCell datatype := by
  cases datatype with
  | string =>
    cases h
    trivial
  | integer =>
    obtain ⟨n, hn, rfl⟩ := Outcome.map_eq_ok_iff.1 h
    rw [readInteger] at hn
    split at hn
    · rename_i found hfound
      cases hn
      exact range_of_integer? hfound
    · cases hn
  | float =>
    obtain ⟨x, -, rfl⟩ := Outcome.map_eq_ok_iff.1 h
    exact (fits_of_ofText h).regular
  | boolean =>
    have h : (readBoolean s).map boolean = .ok v := h
    obtain ⟨b, -, rfl⟩ := Outcome.map_eq_ok_iff.1 h
    trivial
  | date =>
    have h : (readDate s).map date = .ok v := h
    obtain ⟨p, hp, rfl⟩ := Outcome.map_eq_ok_iff.1 h
    rw [readDate] at hp
    split at hp
    · rename_i found hfound
      cases hp
      exact Period.isPlain_of_readPeriod hfound
    · cases hp

/-- A cell is read back from its display. -/
theorem ofText_of_isCell {datatype : DataType} {v : Value} (h : v.IsCell datatype) :
    ofText datatype v.display = .ok v := by
  cases datatype <;> cases v <;> try exact h.elim
  case string.string => rfl
  case integer.integer n =>
    refine Outcome.map_eq_ok_iff.2 ⟨n, ?_, rfl⟩
    rw [readInteger, display, Text.trim_of_forall (isBlank_of_mem_integerText n),
      integer?_integerText h.1 h.2]
  case float.float x =>
    obtain ⟨hfinite, hzero⟩ := h
    refine Outcome.map_eq_ok_iff.2 ⟨x, ?_, rfl⟩
    rw [readFloat, display, Text.trim_of_forall (isBlank_of_mem_plain hfinite),
      number?_plain hfinite]
    simp only [hfinite, hzero, if_true]
  case boolean.boolean b => cases b <;> rfl
  case date.date p =>
    refine Outcome.map_eq_ok_iff.2 ⟨p, ?_, rfl⟩
    rw [readDate, display, Period.ofText?_text h]

/-- A value is read back from its display. -/
theorem ofText_display {datatype : DataType} {s : String} {v : Value}
    (h : ofText datatype s = .ok v) : ofText datatype v.display = .ok v :=
  ofText_of_isCell (isCell_of_ofText h)

/-- What is read is read back from its display. It can be any cell: an integer of 64 bits, a finite
number that is no negative zero, any day, and the years and months of a year with four digits. -/
theorem reads_display (datatype : DataType) :
    (∀ s v, ofText datatype s = .ok v → ofText datatype v.display = .ok v) ∧
      ∀ v : Value, (∃ s, ofText datatype s = .ok v) ↔ v.IsCell datatype :=
  ⟨fun _ _ => ofText_display, fun _ =>
    ⟨fun ⟨_, h⟩ => isCell_of_ofText h, fun h => ⟨_, ofText_of_isCell h⟩⟩⟩

/-- A day of a year with five digits is read from one spelling and displayed in another one. -/
theorem reads_display_sample :
    ofText .date " 31/12/+12345 " = .ok (.date ⟨⟨12345, 12, 31, by decide⟩, .day⟩) ∧
      (Value.date ⟨⟨12345, 12, 31, by decide⟩, .day⟩).display = "+12345-12-31" ∧
      ofText .date "+12345-12-31" = .ok (.date ⟨⟨12345, 12, 31, by decide⟩, .day⟩) := by
  have hread : ofText .date " 31/12/+12345 " =
      .ok (.date ⟨⟨12345, 12, 31, by decide⟩, .day⟩) := by decide +kernel
  have hdisplay : (Value.date ⟨⟨12345, 12, 31, by decide⟩, .day⟩).display = "+12345-12-31" := by
    decide +kernel
  refine ⟨hread, hdisplay, ?_⟩
  rw [← hdisplay]
  exact (reads_display .date).1 _ _ hread

/-- Values of one datatype that are displayed alike are the same. -/
theorem eq_of_display_eq {datatype : DataType} {s t : String} {v w : Value}
    (hv : ofText datatype s = .ok v) (hw : ofText datatype t = .ok w)
    (h : v.display = w.display) : v = w := by
  have hread := ofText_display hv
  rw [h, ofText_display hw, Except.ok.injEq] at hread
  exact hread.symm

end Value

end FactCube
