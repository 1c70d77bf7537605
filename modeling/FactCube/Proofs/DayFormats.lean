import FactCube.Calendar.Reader
import FactCube.Proofs.NumberTexts

/-!
# Days in their formats

A day is written in four formats: year, month and day or day, month and year, with dashes or slashes
between them. The numbers of a format end where a mark starts, so a day is read back in its own
format. In any other format it is not read at all: the marks differ, or a year stands where a number
of two digits is read, which leaves digits behind or meets a sign. So it does not matter in which
order the formats are tried, and no day is taken for another one.

Results:
* `spanYear_fullYear`: the year of a date is read back, with the sign it has outside of four digits.
* `readFields_written`: a format whose numbers are kept apart is read element by element.
* `readDay_written`: a day is read in its own format and in no other.
* `readDate_spelling`: each spelling of a day is read as the day.
-/

namespace FactCube

open Decimal

/-! ## Numbers of a date -/

theorem isDigit_of_mem_padded {width n : Nat} : ∀ c ∈ padded width n, isDigit c = true := by
  rw [padded]
  exact List.forall_mem_append.2
    ⟨fun _ => isDigit_of_mem_zeros, fun _ => isDigit_of_mem_digitText⟩

theorem digitsValue_padded (width n : Nat) : digitsValue (padded width n) = n := by
  rw [padded, digitsValue_append, digitsValue_zeros, digitsValue_digitText, Nat.zero_mul,
    Nat.zero_add]

theorem le_length_padded (width n : Nat) : width ≤ (padded width n).length := by
  rw [padded, List.length_append, zeros, List.length_replicate]
  omega

theorem length_padded {width n : Nat} (hwidth : 0 < width) (h : n < 10 ^ width) :
    (padded width n).length = width := by
  have hle := (length_digitText_le_iff hwidth).2 h
  rw [padded, List.length_append, zeros, List.length_replicate]
  omega

theorem padded_ne_nil (width n : Nat) : padded width n ≠ [] := by
  rw [padded]
  exact List.append_ne_nil_of_right_ne_nil _ (digitText_ne_nil n)

theorem spanNumber_append {width : Nat} {digits rest : List Char} (hne : digits ≠ [])
    (hdigits : ∀ c ∈ digits, isDigit c = true) (hwidth : digits.length ≤ width)
    (hrest : ∀ c ∈ rest.head?, isDigit c = false) :
    spanNumber width (digits ++ rest) = some (digitsValue digits, rest) := by
  have htake : ∀ c ∈ (rest.take (width - digits.length)).head?, isDigit c = false := by
    cases rest with
    | nil => simp
    | cons c rest =>
      cases width - digits.length with
      | zero => simp
      | succ n => simpa using hrest
  have hspan : ((digits ++ rest).take width).takeWhile isDigit = digits := by
    rw [List.take_append, List.take_of_length_le hwidth]
    exact congrArg Prod.fst (spanDigits_append hdigits htake)
  rw [spanNumber]
  simp [hspan, hne]

/-- A text that starts with a digit has no sign, so at most four digits are a year. -/
theorem spanYear_cons {c : Char} (h : isDigit c = true) (s : List Char) :
    spanYear (c :: s) = (spanNumber 4 (c :: s)).map fun (n, rest) => ((n : Int), rest) := by
  rw [spanYear]
  · rintro tail heq
    exact ne_of_isDigit h (by decide) (List.cons.inj heq).1
  · rintro tail heq
    exact ne_of_isDigit h (by decide) (List.cons.inj heq).1

/-- A padded number of at most four digits is read as a year. -/
theorem spanYear_padded {width n : Nat} (hlength : (padded width n).length ≤ 4) {rest : List Char}
    (hrest : ∀ c ∈ rest.head?, isDigit c = false) :
    spanYear (padded width n ++ rest) = some ((n : Int), rest) := by
  have hspan := spanNumber_append (padded_ne_nil _ _) isDigit_of_mem_padded hlength hrest
  obtain ⟨c, digits, hcons⟩ := List.exists_cons_of_ne_nil (padded_ne_nil width n)
  have hdigit : isDigit c = true :=
    isDigit_of_mem_padded c (show c ∈ padded width n from hcons ▸ List.mem_cons_self)
  rw [hcons, List.cons_append] at hspan ⊢
  rw [spanYear_cons hdigit, hspan, ← hcons, digitsValue_padded, Option.map_some]

/-- A year of a date is read back, with the sign it has outside of four digits. -/
theorem spanYear_fullYear (year : Int) {rest : List Char}
    (hrest : ∀ c ∈ rest.head?, isDigit c = false) :
    spanYear (fullYear year ++ rest) = some (year, rest) := by
  have hsigned : spanNumber (padded 4 year.natAbs ++ rest).length (padded 4 year.natAbs ++ rest) =
      some (year.natAbs, rest) := by
    rw [spanNumber_append (padded_ne_nil _ _) isDigit_of_mem_padded (by simp) hrest,
      digitsValue_padded]
  rw [fullYear]
  split
  · rename_i hnegative
    rw [List.cons_append, spanYear, hsigned, Option.map_some, Option.some.injEq, Prod.mk.injEq]
    exact ⟨by omega, rfl⟩
  · split
    · rename_i hnegative hsmall
      have hlength : (padded 4 year.natAbs).length = 4 := length_padded (by decide) (by omega)
      rw [spanYear_padded hlength.le hrest, Int.natAbs_of_nonneg (by omega)]
    · rename_i hnegative hsmall
      rw [List.cons_append, spanYear, hsigned, Option.map_some, Option.some.injEq, Prod.mk.injEq]
      exact ⟨by omega, rfl⟩

theorem trimLeft_padded_append (width n : Nat) (rest : List Char) :
    Text.trimLeft (padded width n ++ rest) = padded width n ++ rest := by
  obtain ⟨c, digits, hcons⟩ := List.exists_cons_of_ne_nil (padded_ne_nil width n)
  have hdigit : isDigit c = true :=
    isDigit_of_mem_padded c (show c ∈ padded width n from hcons ▸ List.mem_cons_self)
  rw [hcons, List.cons_append, Text.trimLeft_cons (isBlank_of_isDigit hdigit)]

/-- A padded number is read back where blanks may stand before it. -/
theorem spanNumber_padded {width n : Nat} (hwidth : 0 < width) (h : n < 10 ^ width)
    {rest : List Char} (hrest : ∀ c ∈ rest.head?, isDigit c = false) :
    spanNumber width (Text.trimLeft (padded width n ++ rest)) = some (n, rest) := by
  rw [trimLeft_padded_append, spanNumber_append (padded_ne_nil _ _) isDigit_of_mem_padded
    (length_padded hwidth h).le hrest, digitsValue_padded]

/-- A year is written with a sign or without one. -/
theorem fullYear_cases (year : Int) :
    (∃ sign, (sign = '-' ∨ sign = '+') ∧ fullYear year = sign :: padded 4 year.natAbs) ∨
      fullYear year = padded 4 year.natAbs := by
  rw [fullYear]
  split
  · exact .inl ⟨'-', .inl rfl, rfl⟩
  · split
    · exact .inr rfl
    · exact .inl ⟨'+', .inr rfl, rfl⟩

theorem isBlank_of_mem_fullYear {year : Int} :
    ∀ c ∈ fullYear year, Text.isBlank c = false := by
  have hdigits : ∀ c ∈ padded 4 year.natAbs, Text.isBlank c = false :=
    fun c hc => isBlank_of_isDigit (isDigit_of_mem_padded c hc)
  rcases fullYear_cases year with ⟨sign, hsign, heq⟩ | heq
  · have hblank : Text.isBlank sign = false := by
      rcases hsign with rfl | rfl <;> decide
    rw [heq]
    exact List.forall_mem_cons.2 ⟨hblank, hdigits⟩
  · rw [heq]
    exact hdigits

theorem le_length_fullYear (year : Int) : 4 ≤ (fullYear year).length := by
  have hlength := le_length_padded 4 year.natAbs
  rcases fullYear_cases year with ⟨sign, -, heq⟩ | heq
  · rw [heq, List.length_cons]
    omega
  · rwa [heq]

theorem trimLeft_fullYear_append (year : Int) (rest : List Char) :
    Text.trimLeft (fullYear year ++ rest) = fullYear year ++ rest := by
  obtain ⟨c, digits, hcons⟩ : ∃ c digits, fullYear year = c :: digits :=
    List.exists_cons_of_length_pos (by have := le_length_fullYear year; omega)
  have hblank := isBlank_of_mem_fullYear c (hcons ▸ List.mem_cons_self)
  rw [hcons, List.cons_append, Text.trimLeft_cons hblank]

/-- A year has too many characters for a number of two digits: digits are left, or a sign is in the
way. -/
theorem spanNumber_fullYear (year : Int) (rest : List Char) :
    spanNumber 2 (fullYear year ++ rest) = none ∨
      ∃ n c after, spanNumber 2 (fullYear year ++ rest) = some (n, c :: after) ∧
        isDigit c = true := by
  rcases fullYear_cases year with ⟨sign, hsign, heq⟩ | heq
  · left
    rw [heq]
    rcases hsign with rfl | rfl <;> rfl
  · right
    have hlength := le_length_padded 4 year.natAbs
    have hdigits := @isDigit_of_mem_padded 4 year.natAbs
    rw [heq]
    generalize padded 4 year.natAbs = digits at *
    obtain _ | ⟨a, _ | ⟨b, _ | ⟨c, digits⟩⟩⟩ := digits
    · simp at hlength
    · simp at hlength
    · simp at hlength
    · have ha := hdigits a (by simp)
      have hb := hdigits b (by simp)
      exact ⟨digitsValue [a, b], c, digits ++ rest, by simp [spanNumber, ha, hb],
        hdigits c (by simp)⟩

theorem daysInMonth_le (year : Int) (month : Nat) : daysInMonth year month ≤ 31 := by
  unfold daysInMonth
  split_ifs <;> decide

/-- The parts of a date have two digits. -/
theorem Date.parts_lt (d : Date) : d.month < 100 ∧ d.day < 100 := by
  obtain ⟨-, -, -, hmonth, -, hday⟩ := d.exists_day
  have hday' := hday.trans (daysInMonth_le d.year d.month)
  omega

/-! ## Dates in a format -/

/-- What an element of a format shows of a date. -/
def DateField.written (d : Date) : DateField → List Char
  | .year => fullYear d.year
  | .month => padded 2 d.month
  | .day => padded 2 d.day
  | .mark c => [c]

/-- A date in a format. -/
def Date.written (d : Date) (format : List DateField) : List Char :=
  format.flatMap (DateField.written d)

/-- The parts read so far with what an element shows of a date. -/
def DateParts.withField (d : Date) (parts : DateParts) : DateField → DateParts
  | .year => { parts with year := d.year }
  | .month => { parts with month := d.month }
  | .day => { parts with day := d.day }
  | .mark _ => parts

/-- Whether a number ends in front of some elements: there are none, or a mark that is no digit is
the first. -/
def EndsDateNumber : List DateField → Prop
  | [] => True
  | .mark c :: _ => isDigit c = false
  | _ => False

/-- Whether no number of a format runs into what follows it. -/
def IsSeparated : List DateField → Prop
  | [] => True
  | .mark _ :: fields => IsSeparated fields
  | _ :: fields => EndsDateNumber fields ∧ IsSeparated fields

theorem Date.written_cons (d : Date) (field : DateField) (fields : List DateField) :
    d.written (field :: fields) = field.written d ++ d.written fields :=
  List.flatMap_cons

theorem EndsDateNumber.isDigit_head {fields : List DateField} (h : EndsDateNumber fields)
    (d : Date) : ∀ c ∈ (d.written fields).head?, isDigit c = false := by
  cases fields with
  | nil => simp [Date.written]
  | cons field fields =>
    cases field with
    | mark c =>
      rw [Date.written_cons, DateField.written]
      rintro _ ⟨⟩
      exact h
    | _ => exact h.elim

/-- A date in a format whose numbers are kept apart is read element by element. -/
theorem readFields_written {format : List DateField} (h : IsSeparated format) (d : Date)
    (parts : DateParts) :
    readFields format parts (d.written format) =
      some (format.foldl (DateParts.withField d) parts) := by
  obtain ⟨hmonth, hday⟩ := d.parts_lt
  induction format generalizing parts with
  | nil => rfl
  | cons field fields ih =>
    rw [Date.written_cons, List.foldl_cons]
    cases field with
    | mark c =>
      rw [DateField.written, List.singleton_append, readFields, if_pos (beq_self_eq_true c)]
      exact ih h parts
    | year =>
      obtain ⟨hends, hrest⟩ := h
      rw [DateField.written, readFields, trimLeft_fullYear_append,
        spanYear_fullYear d.year (hends.isDigit_head d)]
      exact ih hrest _
    | month =>
      obtain ⟨hends, hrest⟩ := h
      rw [DateField.written, readFields,
        spanNumber_padded (by decide) hmonth (hends.isDigit_head d)]
      exact ih hrest _
    | day =>
      obtain ⟨hends, hrest⟩ := h
      rw [DateField.written, readFields, spanNumber_padded (by decide) hday (hends.isDigit_head d)]
      exact ih hrest _

/-- A format whose numbers are kept apart and that shows all parts of a date reads it back. -/
theorem readDay_written_self {format : List DateField} (h : IsSeparated format) (d : Date)
    (hparts : format.foldl (DateParts.withField d) ⟨0, 0, 0⟩ = ⟨d.year, d.month, d.day⟩) :
    readDay format (d.written format) = some d := by
  rw [readDay, readFields_written h, hparts]
  exact Date.ofParts?_eq_some_iff.2 ⟨rfl, rfl, rfl⟩

/-! ## The two orders -/

/-- Year, month and day with a mark between them. -/
def yearFirst (mark : Char) : List DateField := [.year, .mark mark, .month, .mark mark, .day]

/-- Day, month and year with a mark between them. -/
def dayFirst (mark : Char) : List DateField := [.day, .mark mark, .month, .mark mark, .year]

section Orders

variable {mark other : Char}

theorem isSeparated_yearFirst (h : isDigit mark = false) : IsSeparated (yearFirst mark) :=
  ⟨h, h, trivial, trivial⟩

theorem isSeparated_dayFirst (h : isDigit mark = false) : IsSeparated (dayFirst mark) :=
  ⟨h, h, trivial, trivial⟩

theorem Date.written_yearFirst (d : Date) : d.written (yearFirst mark) =
    fullYear d.year ++ mark :: (padded 2 d.month ++ mark :: padded 2 d.day) := by
  simp [written, yearFirst, DateField.written]

theorem Date.written_dayFirst (d : Date) : d.written (dayFirst mark) =
    padded 2 d.day ++ mark :: (padded 2 d.month ++ mark :: fullYear d.year) := by
  simp [written, dayFirst, DateField.written]

theorem isDigit_head_cons (h : isDigit mark = false) (rest : List Char) :
    ∀ c ∈ (mark :: rest).head?, isDigit c = false := by
  rintro _ ⟨⟩
  exact h

/-- With the year first, a day is read iff the mark is the same. -/
theorem readDay_yearFirst (hmark : isDigit mark = false) (hother : isDigit other = false)
    (d : Date) :
    readDay (yearFirst mark) (d.written (yearFirst other)) =
      if mark = other then some d else none := by
  by_cases heq : mark = other
  · subst heq
    rw [if_pos rfl]
    exact readDay_written_self (isSeparated_yearFirst hmark) d rfl
  · have hne : (other == mark) = false := beq_eq_false_iff_ne.2 (Ne.symm heq)
    rw [if_neg heq, readDay, d.written_yearFirst, yearFirst]
    simp only [readFields, trimLeft_fullYear_append,
      spanYear_fullYear d.year (isDigit_head_cons hother _), hne, Bool.false_eq_true, if_false]

/-- With the day first, a day is read iff the mark is the same. -/
theorem readDay_dayFirst (hmark : isDigit mark = false) (hother : isDigit other = false)
    (d : Date) :
    readDay (dayFirst mark) (d.written (dayFirst other)) =
      if mark = other then some d else none := by
  by_cases heq : mark = other
  · subst heq
    rw [if_pos rfl]
    exact readDay_written_self (isSeparated_dayFirst hmark) d rfl
  · have hne : (other == mark) = false := beq_eq_false_iff_ne.2 (Ne.symm heq)
    have hday := @spanNumber_padded 2 d.day (by decide) d.parts_lt.2
    rw [if_neg heq, readDay, d.written_dayFirst, dayFirst]
    simp only [readFields, hday (isDigit_head_cons hother _), hne, Bool.false_eq_true, if_false]

/-- With the day first, the digits of a year are more than those of a day. -/
theorem readDay_dayFirst_yearFirst (hmark : isDigit mark = false) (d : Date) :
    readDay (dayFirst mark) (d.written (yearFirst other)) = none := by
  rw [readDay, d.written_yearFirst, dayFirst]
  simp only [readFields, trimLeft_fullYear_append]
  rcases spanNumber_fullYear d.year (other :: (padded 2 d.month ++ other :: padded 2 d.day)) with
    hnone | ⟨n, c, after, hspan, hdigit⟩
  · simp only [hnone]
  · have hne : (c == mark) = false := beq_eq_false_iff_ne.2 (ne_of_isDigit hdigit hmark)
    simp only [hspan, hne, Bool.false_eq_true, if_false]

/-- With the year first, the day is read as a year and the month as a month, but of the year only
two digits are read as a day. -/
theorem readDay_yearFirst_dayFirst (hother : isDigit other = false) (d : Date) :
    readDay (yearFirst mark) (d.written (dayFirst other)) = none := by
  have hdays : ∀ rest, Text.trimLeft (padded 2 d.day ++ rest) = padded 2 d.day ++ rest :=
    fun rest => trimLeft_padded_append 2 d.day rest
  have hlength : (padded 2 d.day).length = 2 := length_padded (by decide) d.parts_lt.2
  have hyear := @spanYear_padded 2 d.day (by omega)
  have hmonth := @spanNumber_padded 2 d.month (by decide) d.parts_lt.1
  have hrest := trimLeft_fullYear_append d.year []
  rw [List.append_nil] at hrest
  rw [readDay, d.written_dayFirst, yearFirst]
  simp only [readFields, hdays, hyear (isDigit_head_cons hother _),
    hmonth (isDigit_head_cons hother _), hrest]
  split
  · rfl
  · rename_i parts hparts
    exfalso
    by_cases heq : (other == mark) = true
    · rcases spanNumber_fullYear d.year [] with hnone | ⟨n, c, after, hspan, -⟩
      · rw [List.append_nil] at hnone
        simp only [heq, if_true, hnone, reduceCtorEq] at hparts
      · rw [List.append_nil] at hspan
        simp [heq, hspan] at hparts
    · simp [heq] at hparts

end Orders

/-! ## The formats of a day -/

theorem dayFormats_eq :
    dayFormats = [yearFirst '-', dayFirst '/', yearFirst '/', dayFirst '-'] := rfl

theorem mem_dayFormats_iff {format : List DateField} :
    format ∈ dayFormats ↔
      ∃ mark, (mark = '-' ∨ mark = '/') ∧ (format = yearFirst mark ∨ format = dayFirst mark) := by
  rw [dayFormats_eq]
  simp only [List.mem_cons, List.not_mem_nil, or_false]
  constructor
  · rintro (rfl | rfl | rfl | rfl)
    · exact ⟨'-', .inl rfl, .inl rfl⟩
    · exact ⟨'/', .inr rfl, .inr rfl⟩
    · exact ⟨'/', .inr rfl, .inl rfl⟩
    · exact ⟨'-', .inl rfl, .inr rfl⟩
  · rintro ⟨mark, rfl | rfl, rfl | rfl⟩ <;> simp

/-- A day is read in its own format and in no other. -/
theorem readDay_written {format other : List DateField} (hformat : format ∈ dayFormats)
    (hother : other ∈ dayFormats) (d : Date) :
    readDay format (d.written other) = if format = other then some d else none := by
  obtain ⟨mark, hmark, horder⟩ := mem_dayFormats_iff.1 hformat
  obtain ⟨mark', hmark', horder'⟩ := mem_dayFormats_iff.1 hother
  have hdigit : isDigit mark = false := by rcases hmark with rfl | rfl <;> decide
  have hdigit' : isDigit mark' = false := by rcases hmark' with rfl | rfl <;> decide
  rcases horder with rfl | rfl <;> rcases horder' with rfl | rfl
  · rw [readDay_yearFirst hdigit hdigit']
    simp [yearFirst]
  · rw [readDay_yearFirst_dayFirst hdigit', if_neg (by simp [yearFirst, dayFirst])]
  · rw [readDay_dayFirst_yearFirst hdigit, if_neg (by simp [yearFirst, dayFirst])]
  · rw [readDay_dayFirst hdigit hdigit']
    simp [dayFirst]

theorem year4?_of_length {s : List Char} (h : s.length ≠ 4) : year4? s = none := by
  rw [year4?, if_neg]
  rw [Bool.and_eq_true, beq_iff_eq]
  exact fun hshape => h hshape.1

/-- A text of a year and a month has at most seven characters. -/
theorem yearAndMonth?_of_length {s : List Char} (h : 7 < s.length) : yearAndMonth? s = none := by
  rw [yearAndMonth?]
  cases hsplit : Text.splitFirst '-' s with
  | none => rfl
  | some halves =>
    obtain ⟨before, after⟩ := halves
    have hlength := congrArg List.length (Text.append_of_splitFirst hsplit)
    rw [List.length_append, List.length_cons] at hlength
    simp only
    rw [if_neg]
    simp only [Bool.and_eq_true, Bool.or_eq_true, beq_iff_eq]
    omega

/-- A day in one of its formats is too long for a year or a month. -/
theorem le_length_written {format : List DateField} (h : format ∈ dayFormats) (d : Date) :
    10 ≤ (d.written format).length := by
  have hyears := le_length_fullYear d.year
  have hmonths := le_length_padded 2 d.month
  have hdays := le_length_padded 2 d.day
  obtain ⟨mark, -, rfl | rfl⟩ := mem_dayFormats_iff.1 h
  · rw [d.written_yearFirst]
    simp only [List.length_append, List.length_cons]
    omega
  · rw [d.written_dayFirst]
    simp only [List.length_append, List.length_cons]
    omega

/-- A day is read from each of its formats. -/
theorem readPeriod_written {format : List DateField} (h : format ∈ dayFormats) (d : Date) :
    readPeriod (d.written format) = some ⟨d, .day⟩ := by
  have hlong := le_length_written h d
  have hfound : dayFormats.findSome? (fun other => readDay other (d.written format)) = some d := by
    rw [List.findSome?_eq_some_iff]
    obtain ⟨before, after, heq, hbefore⟩ := List.eq_append_cons_of_mem h
    refine ⟨before, format, after, heq, ?_, fun other hother => ?_⟩
    · rw [readDay_written h h, if_pos rfl]
    · have hmem : other ∈ dayFormats := by
        rw [heq]
        exact List.mem_append_left _ hother
      rw [readDay_written hmem h, if_neg]
      rintro rfl
      exact hbefore hother
  rw [readPeriod, year4?_of_length (by omega), yearAndMonth?_of_length (by omega)]
  simp only [hfound, Option.map_some]

theorem isBlank_of_mem_written {format : List DateField} (h : format ∈ dayFormats) (d : Date) :
    ∀ c ∈ d.written format, Text.isBlank c = false := by
  have hpadded : ∀ n, ∀ c ∈ padded 2 n, Text.isBlank c = false :=
    fun _ c hc => isBlank_of_isDigit (isDigit_of_mem_padded c hc)
  obtain ⟨mark, hmark, horder⟩ := mem_dayFormats_iff.1 h
  have hblank : Text.isBlank mark = false := by rcases hmark with rfl | rfl <;> decide
  rcases horder with rfl | rfl
  · rw [d.written_yearFirst]
    simp only [List.forall_mem_append, List.forall_mem_cons]
    exact ⟨isBlank_of_mem_fullYear, hblank, hpadded _, hblank, hpadded _⟩
  · rw [d.written_dayFirst]
    simp only [List.forall_mem_append, List.forall_mem_cons]
    exact ⟨hpadded _, hblank, hpadded _, hblank, isBlank_of_mem_fullYear⟩

/-! ## Spellings -/

/-- The ways to spell a day: year, month and day or day, month and year, with dashes or slashes
between them, the month and the day with two digits. -/
def Date.spellings (d : Date) : List (List Char) :=
  let year := fullYear d.year
  let month := padded 2 d.month
  let day := padded 2 d.day
  [year ++ '-' :: (month ++ '-' :: day), day ++ '/' :: (month ++ '/' :: year),
   year ++ '/' :: (month ++ '/' :: day), day ++ '-' :: (month ++ '-' :: year)]

theorem Date.spellings_eq (d : Date) : d.spellings = dayFormats.map d.written := by
  rw [dayFormats_eq, spellings]
  simp only [List.map_cons, List.map_nil, written_yearFirst, written_dayFirst]

/-- Each spelling of a day, with blanks around it, is read as the day, and no format takes it for
another one. -/
theorem readDate_spelling (d : Date) {text : List Char} (htext : text ∈ d.spellings)
    {before after : List Char} (hbefore : ∀ c ∈ before, Text.isBlank c = true)
    (hafter : ∀ c ∈ after, Text.isBlank c = true) :
    readDate (String.ofList (before ++ text ++ after)) = .ok ⟨d, .day⟩ ∧
      ∀ format ∈ dayFormats, ∀ e, readDay format text = some e → e = d := by
  rw [d.spellings_eq] at htext
  obtain ⟨own, hown, rfl⟩ := List.mem_map.1 htext
  constructor
  · rw [readDate, Period.ofText?, String.toList_ofList, Text.trim_append_blank _ hafter,
      Text.trim_blank_append hbefore, Text.trim_of_forall (isBlank_of_mem_written hown d),
      readPeriod_written hown]
  · intro format hformat e he
    rw [readDay_written hformat hown] at he
    split at he
    · exact (Option.some.inj he).symm
    · cases he

/-- The last day of a year before the first, the day in front, between blanks of two kinds. -/
theorem readDate_spelling_sample :
    "31-12--0044".toList ∈ Date.spellings ⟨-44, 12, 31, by decide⟩ ∧
      readDate "\u00a0 31-12--0044\n" = .ok ⟨⟨-44, 12, 31, by decide⟩, .day⟩ ∧
      ∀ format ∈ dayFormats, ∀ e, readDay format "31-12--0044".toList = some e →
        e = ⟨-44, 12, 31, by decide⟩ := by
  have htext : "31-12--0044".toList ∈ Date.spellings ⟨-44, 12, 31, by decide⟩ := by decide
  have hbefore : ∀ c ∈ ['\u00a0', ' '], Text.isBlank c = true := by simp [Text.isBlank]
  have hafter : ∀ c ∈ ['\n'], Text.isBlank c = true := by simp [Text.isBlank]
  exact ⟨htext, readDate_spelling _ htext hbefore hafter⟩

end FactCube
