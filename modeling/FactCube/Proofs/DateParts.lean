import FactCube.Proofs.DayFormats
import FactCube.Proofs.RowOrder
import FactCube.Proofs.Selection
import FactCube.Proofs.TypedFacts

/-!
# Parts of dates

The year and the month of a date are compared as texts. Digits of one width compare as the numbers
they stand for, so the labels of years of four digits are in the order of time. Of labels of other
years a longer one is compared by its first digits, and before the year 0 digits fall as time goes
on. The labels of two dates ascend iff those of their years do; as far as they do, a store that is
asked for a part of its dates answers in the order of time.

Results:
* `compare_digits_append`: digits of one width are compared as numbers.
* `DatePart.label_le_iff`: when the labels of two dates ascend.
* `Store.followsTime`: conditions on parts of dates and lists of their labels follow time.
* `not_forall_labels_ascend`: the labels of two dates can be against the order of time.
-/

namespace FactCube

open Decimal

/-! ## Texts of digits -/

theorem compare_lists_eq_lt_iff {s t : List Char} : compare s t = .lt ↔ s < t := by
  induction s generalizing t with
  | nil =>
    cases t with
    | nil => exact iff_of_false nofun (List.lt_irrefl _)
    | cons d t => exact iff_of_true List.compare_nil_cons (List.nil_lt_cons d t)
  | cons c s ih =>
    cases t with
    | nil => exact iff_of_false nofun (List.not_lt_nil _)
    | cons d t =>
      rw [List.compare_cons_cons, Ordering.then_eq_lt, ih, List.cons_lt_cons_iff,
        compare_lt_iff_lt, compare_eq_iff_eq]

/-- Texts are compared character by character. -/
theorem compare_ofList (s t : List Char) :
    compare (String.ofList s) (String.ofList t) = compare s t := by
  have hlt : ∀ s t : List Char,
      compare (String.ofList s) (String.ofList t) = .lt ↔ compare s t = .lt := by
    intro s t
    rw [compare_lists_eq_lt_iff, compare_lt_iff_lt, String.lt_iff_toList_lt, String.toList_ofList,
      String.toList_ofList]
  have hgt := hlt t s
  rw [← Std.OrientedCmp.gt_iff_lt, ← Std.OrientedCmp.gt_iff_lt] at hgt
  cases hst : compare s t with
  | lt => exact (hlt s t).2 hst
  | gt => exact hgt.2 hst
  | eq =>
    obtain rfl := Std.LawfulEqCmp.eq_of_compare hst
    exact Std.ReflCmp.compare_self

theorem compare_digit {c d : Char} (hc : isDigit c = true) (hd : isDigit d = true) :
    compare c d = compare (digitsValue [c]) (digitsValue [d]) := by
  have hvalue : ∀ c : Char, digitsValue [c] = c.toNat - 48 := fun c => Nat.zero_add _
  have hc48 : 48 ≤ c.toNat := (isDigit_iff.1 hc).1
  have hd48 : 48 ≤ d.toNat := (isDigit_iff.1 hd).1
  have hmono : ∀ {a b : Char}, a < b → 48 ≤ a.toNat → a.toNat - 48 < b.toNat - 48 :=
    fun hlt h => Nat.sub_lt_sub_right h hlt
  rw [hvalue, hvalue]
  rcases lt_trichotomy c d with hlt | rfl | hlt
  · rw [compare_lt_iff_lt.2 hlt, compare_lt_iff_lt.2 (hmono hlt hc48)]
  · rw [compare_eq_iff_eq.2 rfl, compare_eq_iff_eq.2 rfl]
  · rw [compare_gt_iff_gt.2 hlt, compare_gt_iff_gt.2 (hmono hlt hd48)]

/-- Numbers are compared by their quotients and then by their remainders. -/
theorem compare_mul_add {a b c d n : Nat} (hb : b < n) (hd : d < n) :
    compare (a * n + b) (c * n + d) = (compare a c).then (compare b d) := by
  have hless : ∀ {a b c d : Nat}, b < n → a < c → a * n + b < c * n + d := by
    intro a b c d hb hac
    have hmul := Nat.mul_le_mul_right n (Nat.succ_le_of_lt hac)
    rw [Nat.succ_mul] at hmul
    omega
  rcases lt_trichotomy a c with hlt | rfl | hlt
  · rw [compare_lt_iff_lt.2 hlt, compare_lt_iff_lt.2 (hless hb hlt)]
    rfl
  · rw [compare_eq_iff_eq.2 rfl, Nat.compare_eq_ite_lt, Nat.compare_eq_ite_lt]
    simp only [Nat.add_lt_add_iff_left]
    rfl
  · rw [compare_gt_iff_gt.2 hlt, compare_gt_iff_gt.2 (hless hd hlt)]
    rfl

/-- Digits of one width are compared as the numbers they stand for, and then by what follows. -/
theorem compare_digits_append {xs ys : List Char} (hx : ∀ c ∈ xs, isDigit c = true)
    (hy : ∀ c ∈ ys, isDigit c = true) (hlength : xs.length = ys.length) (s t : List Char) :
    compare (xs ++ s) (ys ++ t) =
      (compare (digitsValue xs) (digitsValue ys)).then (compare s t) := by
  induction xs generalizing ys with
  | nil =>
    obtain rfl := List.length_eq_zero_iff.1 hlength.symm
    rfl
  | cons x xs ih =>
    obtain ⟨y, ys, rfl⟩ := List.exists_cons_of_length_eq_add_one hlength.symm
    rw [List.forall_mem_cons] at hx hy
    have htail : xs.length = ys.length := Nat.succ.inj hlength
    have hvalue : ∀ c s, digitsValue (c :: s) = digitsValue [c] * 10 ^ s.length + digitsValue s :=
      fun c s => digitsValue_append [c] s
    rw [List.cons_append, List.cons_append, List.compare_cons_cons, ih hx.2 hy.2 htail,
      ← Ordering.then_assoc, compare_digit hx.1 hy.1, hvalue x xs, hvalue y ys, htail,
      compare_mul_add (htail ▸ digitsValue_lt hx.2) (digitsValue_lt hy.2)]

/-- A number with fewer digits than another one is compared with its first digits. -/
theorem compare_digits_of_lt {xs ys s : List Char} (hx : ∀ c ∈ xs, isDigit c = true)
    (hy : ∀ c ∈ ys, isDigit c = true) (hs : ∀ c ∈ s.head?, c < '0')
    (hlength : xs.length ≤ ys.length) (hvalue : digitsValue xs < digitsValue ys) (t : List Char) :
    compare (xs ++ s) (ys ++ t) =
      if digitsValue xs ≤ digitsValue ys / 10 ^ (ys.length - xs.length) then .lt else .gt := by
  set first := ys.take xs.length with hfirst
  set rest := ys.drop xs.length with hrest
  have hys : ys = first ++ rest := (List.take_append_drop _ _).symm
  have hfirsts : ∀ c ∈ first, isDigit c = true := fun c hc => hy c (List.mem_of_mem_take hc)
  have hrests : ∀ c ∈ rest, isDigit c = true := fun c hc => hy c (List.mem_of_mem_drop hc)
  have hquotient : digitsValue ys / 10 ^ (ys.length - xs.length) = digitsValue first := by
    rw [← List.length_drop, ← hrest, hys, digitsValue_append, Nat.add_comm,
      Nat.add_mul_div_right _ _ (Nat.pow_pos (by decide)), Nat.div_eq_of_lt (digitsValue_lt hrests),
      Nat.zero_add]
  have hsame : xs.length = first.length := by
    rw [hfirst, List.length_take, Nat.min_eq_left hlength]
  rw [hquotient, hys, List.append_assoc, compare_digits_append hx hfirsts hsame]
  rcases lt_trichotomy (digitsValue xs) (digitsValue first) with hlt | heq | hgt
  · rw [compare_lt_iff_lt.2 hlt, if_pos hlt.le]
    rfl
  · -- The other number has more digits, as it would be the same one otherwise.
    rw [compare_eq_iff_eq.2 heq, if_pos heq.le, Ordering.eq_then]
    cases hcase : rest with
    | nil =>
      rw [hys, hcase, List.append_nil] at hvalue
      omega
    | cons d rest' =>
      have hd : '0' ≤ d := (isDigit_iff.1 (hrests d (hcase ▸ List.mem_cons_self))).1
      cases s with
      | nil => exact List.compare_nil_cons
      | cons c s =>
        rw [List.cons_append, List.compare_cons_cons,
          compare_lt_iff_lt.2 ((hs c rfl).trans_le hd)]
        rfl
  · rw [compare_gt_iff_gt.2 hgt, if_neg hgt.not_ge]
    rfl

/-! ## Labels of years -/

theorem length_padded_le {width m n : Nat} (h : m ≤ n) :
    (padded width m).length ≤ (padded width n).length := by
  have hdigits : (digitText m).length ≤ (digitText n).length :=
    have hpos : 0 < (digitText n).length := List.length_pos_iff.2 (digitText_ne_nil n)
    (length_digitText_le_iff hpos).2 (h.trans_lt ((length_digitText_le_iff hpos).1 le_rfl))
  simp only [padded, List.length_append, zeros, List.length_replicate]
  omega

/-- The digits of the label of a year. -/
def yearDigits (year : Int) : List Char := padded (if year < 0 then 3 else 4) year.natAbs

/-- Whether the label of a year is not above that of a later one. From the year 0 on it is compared
with the first digits of a longer one. Before the year 0, where digits fall as years rise, the first
digits of a longer label have to be below the shorter one. -/
def LabelsAscend (y z : Int) : Prop :=
  if 0 ≤ y then y.natAbs ≤ z.natAbs / 10 ^ ((yearDigits z).length - (yearDigits y).length)
  else if 0 ≤ z then True
  else y = z ∨ y.natAbs / 10 ^ ((yearDigits y).length - (yearDigits z).length) < z.natAbs

instance (y z : Int) : Decidable (LabelsAscend y z) := instDecidableIte

theorem LabelsAscend.refl (y : Int) : LabelsAscend y y := by
  rw [LabelsAscend, Nat.sub_self, pow_zero, Nat.div_one]
  split
  · exact le_rfl
  · exact .inl rfl

/-- The labels of years of at most four digits ascend. -/
theorem LabelsAscend.of_le {y z : Int} (hy : 0 ≤ y) (h : y ≤ z) (hz : z ≤ 9999) :
    LabelsAscend y z := by
  have hlength : ∀ n : Int, 0 ≤ n → n ≤ 9999 → (yearDigits n).length = 4 := by
    intro n hn hn'
    rw [yearDigits, if_neg (by omega)]
    exact length_padded (by decide) (by omega)
  rw [LabelsAscend, if_pos hy, hlength y hy (by omega), hlength z (by omega) hz, Nat.sub_self,
    pow_zero, Nat.div_one]
  omega

/-- Whether the labels of two years are in the order of the years. -/
def LabelsAgree (y z : Int) : Prop := LabelsAscend (min y z) (max y z)

/-! ## Labels of parts -/

namespace DatePart

/-- The label of a part of a date. -/
def label (p : Period) : DatePart → String
  | .year => p.yearLabel
  | .month => p.monthLabel

/-- How the parts of two dates compare in time. -/
def order (p q : Period) : DatePart → Ordering
  | .year => compare p.date.year q.date.year
  | .month => (compare p.date.year q.date.year).then (compare p.date.month q.date.month)

/-- What stands after the year in a label. -/
def afterYear (p : Period) : DatePart → List Char
  | .year => []
  | .month => '-' :: padded 2 p.date.month

variable {part : DatePart} {p q : Period}

theorem label_of_nonneg (h : 0 ≤ p.date.year) :
    part.label p = String.ofList (yearDigits p.date.year ++ part.afterYear p) := by
  have hyear : p.yearLabel = String.ofList (yearDigits p.date.year) := by
    rw [Period.yearLabel, yearLabel, yearDigits, if_neg h.not_gt, if_neg h.not_gt]
  cases part with
  | year => rw [label, hyear, afterYear, List.append_nil]
  | month => rw [label, Period.monthLabel, hyear, afterYear, String.ofList_append]

theorem label_of_neg (h : p.date.year < 0) :
    part.label p = String.ofList ('-' :: (yearDigits p.date.year ++ part.afterYear p)) := by
  have hyear : p.yearLabel = String.ofList ('-' :: yearDigits p.date.year) := by
    rw [Period.yearLabel, yearLabel, yearDigits, if_pos h, if_pos h]
  cases part with
  | year => rw [label, hyear, afterYear, List.append_nil]
  | month =>
    rw [label, Period.monthLabel, hyear, afterYear, ← String.ofList_append, List.cons_append]

theorem lt_zero_of_mem_afterYear : ∀ c ∈ (part.afterYear p).head?, c < '0' := by
  cases part with
  | year => exact nofun
  | month =>
    intro c hc
    obtain rfl := Option.some.inj hc
    decide

theorem digitsValue_yearDigits (year : Int) : digitsValue (yearDigits year) = year.natAbs :=
  digitsValue_padded _ _

/-- Years of one sign have the more digits the further they are from 0. -/
theorem length_yearDigits_le {y z : Int} (hsign : y < 0 ↔ z < 0) (h : y.natAbs ≤ z.natAbs) :
    (yearDigits y).length ≤ (yearDigits z).length := by
  simp only [yearDigits, hsign]
  exact length_padded_le h

/-- The labels of two years are told apart, in the order of time or against it. -/
theorem compare_label_of_lt (h : p.date.year < q.date.year) :
    compare (part.label p) (part.label q) =
      if LabelsAscend p.date.year q.date.year then .lt else .gt := by
  have hdigits : ∀ year, ∀ c ∈ yearDigits year, isDigit c = true :=
    fun year => isDigit_of_mem_padded
  by_cases hp : 0 ≤ p.date.year
  · have hvalue : p.date.year.natAbs < q.date.year.natAbs := by omega
    rw [label_of_nonneg hp, label_of_nonneg (hp.trans h.le), compare_ofList,
      compare_digits_of_lt (hdigits _) (hdigits _) lt_zero_of_mem_afterYear
        (length_yearDigits_le (by omega) hvalue.le)
        (by rwa [digitsValue_yearDigits, digitsValue_yearDigits])]
    simp only [digitsValue_yearDigits, LabelsAscend, if_pos hp]
  by_cases hq : 0 ≤ q.date.year
  · have hne : yearDigits q.date.year ≠ [] := padded_ne_nil _ _
    obtain ⟨d, rest, hrest⟩ := List.exists_cons_of_ne_nil hne
    have hd : isDigit d = true := hdigits q.date.year d (hrest ▸ List.mem_cons_self)
    have hdash : '-' < d := (show '-' < '0' by decide).trans_le (isDigit_iff.1 hd).1
    have hascend : LabelsAscend p.date.year q.date.year := by
      rw [LabelsAscend, if_neg hp, if_pos hq]
      trivial
    rw [label_of_neg (not_le.1 hp), label_of_nonneg hq, compare_ofList, hrest, List.cons_append,
      List.compare_cons_cons, compare_lt_iff_lt.2 hdash, if_pos hascend]
    rfl
  · -- Both labels start with the sign, and the digits of the later year are the smaller number.
    have hvalue : q.date.year.natAbs < p.date.year.natAbs := by omega
    rw [label_of_neg (not_le.1 hp), label_of_neg (not_le.1 hq), compare_ofList,
      List.compare_cons_cons, compare_eq_iff_eq.2 rfl, Ordering.eq_then,
      @Std.OrientedCmp.eq_swap (List Char) compare _ _ _,
      compare_digits_of_lt (hdigits _) (hdigits _) lt_zero_of_mem_afterYear
        (length_yearDigits_le (by omega) hvalue.le)
        (by rwa [digitsValue_yearDigits, digitsValue_yearDigits])]
    simp only [digitsValue_yearDigits, LabelsAscend, if_neg hp, if_neg hq, h.ne, false_or,
      ← not_le, ite_not]
    split <;> rfl

/-- Within a year labels are in the order of time. -/
theorem compare_label_of_eq (h : p.date.year = q.date.year) :
    compare (part.label p) (part.label q) = part.order p q := by
  have hafter : compare (part.label p) (part.label q) =
      compare (part.afterYear p) (part.afterYear q) := by
    have hdigits : ∀ c ∈ yearDigits q.date.year, isDigit c = true := isDigit_of_mem_padded
    by_cases hq : 0 ≤ q.date.year
    · rw [label_of_nonneg (h ▸ hq), label_of_nonneg hq, compare_ofList, h,
        compare_digits_append hdigits hdigits rfl, compare_eq_iff_eq.2 rfl, Ordering.eq_then]
    · rw [label_of_neg (h ▸ not_le.1 hq), label_of_neg (not_le.1 hq), compare_ofList, h,
        List.compare_cons_cons, compare_digits_append hdigits hdigits rfl,
        compare_eq_iff_eq.2 rfl, compare_eq_iff_eq.2 rfl, Ordering.eq_then, Ordering.eq_then]
  rw [hafter]
  cases part with
  | year => exact (compare_eq_iff_eq.2 h).symm
  | month =>
    have hlength : ∀ d : Date, (padded 2 d.month).length = 2 := fun d =>
      length_padded (by decide) d.parts_lt.1
    have hmonths := compare_digits_append isDigit_of_mem_padded isDigit_of_mem_padded
      ((hlength p.date).trans (hlength q.date).symm) [] []
    rw [List.append_nil, List.append_nil, digitsValue_padded, digitsValue_padded] at hmonths
    rw [order, compare_eq_iff_eq.2 h, Ordering.eq_then, afterYear, afterYear,
      List.compare_cons_cons, compare_eq_iff_eq.2 rfl, Ordering.eq_then, hmonths]
    exact Ordering.then_eq

theorem order_eq_lt_of_lt (h : p.date.year < q.date.year) : part.order p q = .lt := by
  cases part with
  | year => exact compare_lt_iff_lt.2 h
  | month => rw [order, compare_lt_iff_lt.2 h, Ordering.lt_then]

theorem swap_order : (part.order p q).swap = part.order q p := by
  have hyear : (compare p.date.year q.date.year).swap = compare q.date.year p.date.year :=
    Std.OrientedOrd.eq_swap.symm
  have hmonth : (compare p.date.month q.date.month).swap = compare q.date.month p.date.month :=
    Std.OrientedOrd.eq_swap.symm
  cases part with
  | year => exact hyear
  | month => rw [order, order, Ordering.swap_then, hyear, hmonth]

/-- An earlier date has no later part. -/
theorem isLE_order (h : (p.compare q).isLE = true) : (part.order p q).isLE = true := by
  have hsplit : ∃ o, p.compare q = (part.order p q).then o := by
    cases part with
    | year => exact ⟨_, by rw [Period.compare, Date.compare, Ordering.then_assoc]; rfl⟩
    | month =>
      exact ⟨_, by
        rw [Period.compare, Date.compare, ← Ordering.then_assoc, Ordering.then_assoc]; rfl⟩
  obtain ⟨o, ho⟩ := hsplit
  rw [ho] at h
  exact (Ordering.isLE_then_iff_and.1 h).1

/-- Labels are in the order of time iff those of their years are. -/
theorem compare_label_eq_order_iff :
    compare (part.label p) (part.label q) = part.order p q ↔
      LabelsAgree p.date.year q.date.year := by
  have hlater : ∀ {p q : Period}, p.date.year < q.date.year →
      (compare (part.label p) (part.label q) = part.order p q ↔
        LabelsAscend p.date.year q.date.year) := by
    intro p q h
    rw [compare_label_of_lt h, order_eq_lt_of_lt h]
    split <;> simp_all
  rcases lt_trichotomy p.date.year q.date.year with hlt | heq | hgt
  · rw [hlater hlt, LabelsAgree, min_eq_left hlt.le, max_eq_right hlt.le]
  · rw [LabelsAgree, heq, min_self, max_self]
    exact iff_of_true (compare_label_of_eq heq) (.refl _)
  · have hswap : compare (part.label p) (part.label q) =
        (compare (part.label q) (part.label p)).swap := Std.OrientedOrd.eq_swap
    rw [LabelsAgree, min_eq_right hgt.le, max_eq_left hgt.le, ← hlater hgt, hswap, ← swap_order,
      Ordering.swap_inj]

/-- The labels of two dates ascend iff those of their years do. -/
theorem label_le_iff (h : (p.compare q).isLE = true) :
    part.label p ≤ part.label q ↔ LabelsAscend p.date.year q.date.year := by
  have hle : part.label p ≤ part.label q ↔ compare (part.label p) (part.label q) ≠ .gt := by
    rw [Ne, compare_gt_iff_gt, not_lt]
  have hyear : p.date.year ≤ q.date.year :=
    not_lt.1 fun hlt => Ordering.isLE_iff_ne_gt.1 (@isLE_order .year p q h)
      (compare_gt_iff_gt.2 hlt)
  rw [hle]
  rcases hyear.lt_or_eq with hlt | heq
  · rw [compare_label_of_lt hlt]
    split <;> simp_all
  · rw [compare_label_of_eq heq, heq]
    exact iff_of_true (Ordering.isLE_iff_ne_gt.1 (isLE_order h)) (.refl _)

end DatePart

/-! ## Facts with dates -/

/-- A date has the labels of its parts. -/
theorem valueAt_datePart {contents : Contents} {index : Nat} {p : Period}
    (h : valueAt contents (.scalar index) = some (.date p)) (part : DatePart) :
    valueAt contents (.datePart index part) = some (.string (part.label p)) := by
  have hentry : contents[index]? = some (.scalar (.date p)) := by
    unfold valueAt at h
    split at h
    case h_1 hscalar => rwa [Option.some.inj h] at hscalar
    all_goals contradiction
  cases part <;> simp only [valueAt, Field.dimension, hentry] <;> rfl

/-- A fact has a date where the schema has one. -/
theorem Schema.HasField.exists_period {schema : Schema} {index : Nat} {part : DatePart}
    (h : schema.HasField (.datePart index part)) {contents : Contents}
    (hcontents : schema.Admits contents) :
    ∃ p, valueAt contents (.scalar index) = some (.date p) := by
  cases h with
  | datePart hd hcontent =>
    obtain ⟨v, hv⟩ := exists_valueAt hcontents (.scalar hd hcontent)
    have hfits := fits_of_valueAt hcontents hv
    rw [Schema.typeOf_scalar hd hcontent] at hfits
    cases v with
    | date p => exact ⟨p, hv⟩
    | _ => cases hfits.dataType_eq

/-! ## Rows by date -/

/-- Whether the rows of a query are listed by the drilldown of a path first: it is the first order
key, or there is none and it is the first drilldown. -/
inductive Query.ListsBy (query : Query) (path : String) (column : Nat) : Direction → Prop
  | key {direction : Direction} {order : List OrderKey} :
    query.drilldowns.findIdx? (fun d => d == path) = some column →
    query.order = ⟨path, direction⟩ :: order → ListsBy query path column direction
  | keys : query.drilldowns[0]? = some path → column = 0 → query.order = [] →
    ListsBy query path column .ascending

/-- Whether rows have the labels of dates of facts at a column and are listed in the order of time,
as far as the labels of years agree with it. -/
structure IsListedByTime {σ : Type} (facts : List Record) (index : Nat) (part : DatePart)
    (column : Nat) (direction : Direction) (rows : List (GroupRow σ)) : Prop where
  dated : ∀ row ∈ rows, ∃ fact ∈ facts, ∃ p,
    valueAt fact.contents (.scalar index) = some (.date p) ∧
      row.keys[column]? = some (.string (part.label p))
  ordered : rows.Pairwise fun a b => ∀ p q : Period,
    a.keys[column]? = some (.string (part.label p)) →
    b.keys[column]? = some (.string (part.label q)) →
    LabelsAgree p.date.year q.date.year → GroupRow.directed direction (part.order p q) ≠ .gt

section Rows

variable {σ : Type} {arith : Arithmetic σ} {schema : Schema} {query : Query} {plan : Plan}
  {path : String} {index column : Nat} {part : DatePart} {direction : Direction}
  {a b : GroupRow σ} {v w : Value}

theorem Query.ListsBy.drilldown (h : query.ListsBy path column direction) :
    query.drilldowns[column]? = some path := by
  cases h with
  | key hcolumn _ =>
    obtain ⟨hlt, heq, -⟩ := List.findIdx?_eq_some_iff_getElem.1 hcolumn
    rw [List.getElem?_eq_getElem hlt, eq_of_beq heq]
  | keys hfirst hcolumn _ => rw [hcolumn, hfirst]

/-- The first keys of ascending rows do not descend. -/
theorem compare_ne_gt_of_compareLists (hab : Value.compareLists a.keys b.keys = .lt)
    (hv : a.keys[0]? = some v) (hw : b.keys[0]? = some w) : v.compare w ≠ .gt := by
  rw [← List.head?_eq_getElem?, List.head?_eq_some_iff] at hv hw
  obtain ⟨as, has⟩ := hv
  obtain ⟨bs, hbs⟩ := hw
  rw [Value.compareLists, has, hbs, List.compareLex_cons_cons] at hab
  intro hgt
  rw [hgt, Ordering.gt_then] at hab
  cases hab

/-- What an order puts first decides how rows are listed. -/
theorem Query.ListsBy.directed_ne_gt (h : query.ListsBy path column direction)
    (hplan : query.plan schema = .ok plan)
    (hab : GroupRow.compareAll arith plan.order a b = .lt) (hv : a.keys[column]? = some v)
    (hw : b.keys[column]? = some w) : GroupRow.directed direction (v.compare w) ≠ .gt := by
  have horder := (resolved_of_plan hplan).order
  cases h with
  | key hcolumn hkeys =>
    have hkey : planOrder query.drilldowns plan.measures ⟨path, direction⟩ =
        .ok (.drilldown column, direction) := by
      rw [planOrder]
      simp only [hcolumn]
    rw [hkeys, Outcome.mapM_eq_ok_iff, List.forall₂_cons_left_iff] at horder
    obtain ⟨first, rest, hfirst, -, hrest⟩ := horder
    obtain rfl := Except.ok.inj (hkey.symm.trans hfirst)
    rw [hrest, GroupRow.compareAll, GroupRow.compare, Ordering.then_assoc, GroupRow.compareBy, hv,
      hw, GroupRow.compareOptions] at hab
    intro hgt
    rw [hgt, Ordering.gt_then] at hab
    cases hab
  | keys _ hcolumn hkeys =>
    rw [hkeys, Outcome.mapM_nil, Except.ok.injEq] at horder
    subst hcolumn
    rw [← horder] at hab
    exact compare_ne_gt_of_compareLists hab hv hw

/-- Where rows are grouped by a part of a date, their keys are labels of dates of facts. -/
theorem exists_period_of_mem_groupRows (hschema : schema.WellFormed)
    (hfields : ∀ field ∈ plan.drilldowns, schema.HasField field) {facts : List Record}
    (hfacts : ∀ fact ∈ facts, schema.IsFact fact) {members? : Option (Std.TreeSet String)}
    {workers : Nat} (hdrilldown : plan.drilldowns[column]? = some (.datePart index part))
    {row : GroupRow σ}
    (hrow : row ∈ groupRows arith plan.measures.length
      (groupRecords arith plan members? workers facts)) :
    ∃ fact ∈ facts, ∃ p, valueAt fact.contents (.scalar index) = some (.date p) ∧
      row.keys[column]? = some (.string (part.label p)) := by
  obtain ⟨rows, hrows, houtline⟩ :=
    @exists_isGroupBy_groupRecords _ arith _ hschema _ hfields members? _ hfacts workers
  obtain ⟨fact, hgrouped, hkeys, -⟩ := hrows.exists_fact houtline hrow
  have hfact : fact ∈ facts := List.mem_of_mem_filter hgrouped
  have hadmits := (hfacts fact hfact).admits hschema
  obtain ⟨p, hp⟩ := (hfields _ (List.mem_of_getElem? hdrilldown)).exists_period hadmits
  refine ⟨fact, hfact, p, hp, ?_⟩
  rw [hkeys, Plan.getElem?_tuple hfields hadmits, hdrilldown, Option.bind_some, valueAt_datePart hp]

/-- The rows of a query that lists a part of a date first are listed by time. -/
theorem isListedByTime_ofGroups (hschema : schema.WellFormed)
    (hpath : schema.resolve? path = some (.datePart index part))
    (hplan : query.plan schema = .ok plan) (hlists : query.ListsBy path column direction)
    {facts : List Record} (hfacts : ∀ fact ∈ facts, schema.IsFact fact)
    (members? : Option (Std.TreeSet String)) (workers : Nat) :
    IsListedByTime facts index part column direction
      (Aggregate.ofGroups .binary64 plan
        (groupRecords .binary64 plan members? workers facts)).rows := by
  have hresolved := Query.resolved_of_plan hplan
  have hfields : ∀ field ∈ plan.drilldowns, schema.HasField field := fun _ => hresolved.hasField
  have htable := @isTable_groupRows _ .binary64 _ hschema _ _ hplan members? _ hfacts workers
  have hsublist := pageOf_sublist plan.page
    (Aggregate.ofGroups .binary64 plan
      (groupRecords .binary64 plan members? workers facts)).summary.pageSize
    (orderRows .binary64 plan.order (groupRows .binary64 plan.measureNames.length
      (groupRecords .binary64 plan members? workers facts)))
  have hdrilldown : plan.drilldowns[column]? = some (.datePart index part) := by
    obtain ⟨field, hfield, hresolve⟩ := Validation.exists_getElem?_of_forall₂
      (Outcome.mapM_eq_ok_iff.1 hresolved.drilldowns).flip hlists.drilldown
    rw [Query.resolve_eq_ok_iff, hpath, Option.some.injEq] at hresolve
    rw [hfield, hresolve]
  constructor
  · intro row hrow
    have hmem := (List.mergeSort_perm _ _).mem_iff.1 (hsublist.subset hrow)
    rw [plan.length_measureNames] at hmem
    exact exists_period_of_mem_groupRows hschema hfields hfacts hdrilldown hmem
  · refine ((GroupRow.pairwise_orderRows plan.order htable.types htable.ascending).sublist
      hsublist).imp fun {a b} hab p q hp hq hagree => ?_
    have hne := hlists.directed_ne_gt hplan hab hp hq
    rwa [← DatePart.compare_label_eq_order_iff.2 hagree]

/-- The rows of a view whose breakdown is a part of a date are listed by time. -/
theorem isListedByTime_answer (hschema : schema.WellFormed) {view : View}
    (hbreakdown : view.breakdown = .datePart index part)
    (hfield : schema.HasField (.datePart index part)) {member? : Option String}
    (hplan : view.plan schema member? = .ok plan) {facts : List Record}
    (hfacts : ∀ fact ∈ facts, schema.IsFact fact) (workers : Nat) :
    IsListedByTime facts index part 0 .ascending
      (view.answer arith schema plan (groupRecords arith plan none workers facts)).rows := by
  have hdrilldowns : plan.drilldowns = [.datePart index part] := by
    rw [(View.drilldowns_of_plan hplan).1, hbreakdown]
  have hfields : ∀ field ∈ plan.drilldowns, schema.HasField field := by
    rw [hdrilldowns]
    exact List.forall_mem_singleton.2 hfield
  rw [View.answer]
  split
  · constructor
    · intro row
      exact exists_period_of_mem_groupRows hschema hfields hfacts (by rw [hdrilldowns]; rfl)
    · refine (pairwise_groupRecords hschema hfields none hfacts workers).imp
        fun {a b} hab p q hp hq hagree => ?_
      rw [← DatePart.compare_label_eq_order_iff.2 hagree]
      exact compare_ne_gt_of_compareLists hab hp hq
  · exact ⟨List.forall_mem_nil _, .nil⟩

end Rows

/-! ## Stores with dates -/

/-- Whether a store that is asked for a part of its dates answers in the order of time, as far as
the labels of years agree with it. -/
structure Store.FollowsTime (store : Store) (schema : Schema) (path : String) (index : Nat)
    (part : DatePart) : Prop where
  /-- The labels of an earlier and of a later date ascend iff those of their years do. -/
  labels : ∀ p q : Period, (p.compare q).isLE = true →
    (part.label p ≤ part.label q ↔ LabelsAscend p.date.year q.date.year)
  agree : ∀ y z : Int, 0 ≤ y → y ≤ 9999 → 0 ≤ z → z ≤ 9999 → LabelsAgree y z
  dated : ∀ fact ∈ store.toList, ∃ p, valueAt fact.contents (.scalar index) = some (.date p) ∧
    valueAt fact.contents (.datePart index part) = some (.string (part.label p))
  /-- A condition with a label accepts a fact iff its operator is true of the dates. -/
  conditions : ∀ operator q, ∃ predicate,
    Query.planCondition schema ⟨path, operator, part.label q⟩ = .ok predicate ∧
      ∀ fact ∈ store.toList, ∀ p, valueAt fact.contents (.scalar index) = some (.date p) →
        LabelsAgree p.date.year q.date.year →
        (predicate.accepts fact.contents = true ↔ operator.Holds (part.order p q))
  queries : ∀ query plan, query.plan schema = .ok plan →
    (∀ name, query.collection? = some name → (store.collection? name).isSome = true) →
    ∀ column direction, query.ListsBy path column direction → ∀ workers,
      ∃ answer, store.aggregate schema workers query = .ok answer ∧
        IsListedByTime store.toList index part column direction answer.rows
  views : ∀ entity name dimension? view, schema.view? entity name dimension? = some view →
    view.breakdown = .datePart index part → ∀ member? plan,
    view.plan schema member? = .ok plan → ∀ workers,
      ∃ answer, store.view schema workers entity name dimension? member? = .ok answer ∧
        IsListedByTime store.toList index part 0 .ascending answer.rows

namespace Store

variable {doc : Document} {schema : Schema} {path : String} {index : Nat} {part : DatePart}

/-- A store answers in the order of time where it is asked for a part of its dates, as far as the
labels of the years agree with it. -/
theorem followsTime (hvalid : doc.validate = .ok schema)
    (hpath : schema.resolve? path = some (.datePart index part)) {store : Store}
    (hfacts : ∀ fact ∈ store.toList, schema.IsFact fact) :
    store.FollowsTime schema path index part := by
  have hschema := Document.wellFormed_of_validate hvalid
  have hfield := Schema.hasField_of_resolve? hpath
  constructor
  · exact fun p q => DatePart.label_le_iff
  · intro y z hy hy' hz hz'
    exact .of_le (le_min hy hz) min_le_max (max_le hy' hz')
  · intro fact hfact
    obtain ⟨p, hp⟩ := hfield.exists_period ((hfacts fact hfact).admits hschema)
    exact ⟨p, hp, valueAt_datePart hp part⟩
  · intro operator q
    refine ⟨⟨.datePart index part, .compare operator (.string (part.label q))⟩, ?_, ?_⟩
    · have hliteral : Value.ofText (schema.typeOf (.datePart index part)) (part.label q) =
          .ok (.string (part.label q)) := by
        rw [Schema.typeOf_datePart]
        rfl
      exact Query.planCondition_eq_ok_iff.2 ⟨_, _, hpath, hliteral, rfl⟩
    · intro fact hfact p hp hagree
      have horder : (Value.string (part.label p)).compare (.string (part.label q)) =
          part.order p q := DatePart.compare_label_eq_order_iff.2 hagree
      rw [FieldPredicate.accepts, valueAt_datePart hp part, ← horder]
      exact Operator.accepts_iff
  · intro query plan hplan hcollection column direction hlists workers
    rw [← (Query.resolved_of_plan hplan).collection?] at hcollection
    obtain ⟨members?, hmembers, -⟩ := exists_membersFor hcollection
    refine ⟨_, ?_, isListedByTime_ofGroups hschema hpath hplan hlists hfacts members? workers⟩
    rw [aggregate, aggregateWith_of_plan hplan, hmembers]
    rfl
  · intro entity name dimension? view hfound hbreakdown member? plan hplan workers
    refine ⟨view.answer .binary64 schema plan
      (groupRecords .binary64 plan none workers store.toList), ?_,
      isListedByTime_answer hschema hbreakdown hfield hplan hfacts workers⟩
    rw [Store.view, viewWith_eq, hfound]
    simp only [hplan]
    rfl

end Store

namespace Sample

/-- A document with dates and amounts. -/
def ledgerDocument : Document where
  dataset := ⟨"ledger", "", "", "GBP"⟩
  mapping := [("time", "time"), ("amount", "amount")]
  dimensions :=
    [("time", ⟨"value", "", "", some "date", [], none, false, false, none, none, none⟩),
     ("amount", ⟨"measure", "", "", some "float", [], none, false, false, none, none, none⟩)]
  views := []

/-- The schema of the document. -/
def ledgerSchema : Schema where
  dataset := ⟨"ledger", "", "", "GBP"⟩
  dimensions :=
    [⟨"time", .value, "", "", false, false, none, none, none, .scalar .date none⟩,
     ⟨"amount", .measure, "", "", false, false, none, none, none, .scalar .float none⟩]
  fields :=
    [⟨"time", "time", .scalar 0, .date, none, false⟩,
     ⟨"amount", "amount", .scalar 1, .float, none, false⟩]
  taxonomies := []
  views := []

theorem validate_ledger : ledgerDocument.validate = .ok ledgerSchema := rfl

/-- A store with amounts of three years. -/
def ledgerStore : Store :=
  ((loadRows ledgerSchema .strict 1
    [Row.ofList [("time", "2010-03-31"), ("amount", "5")],
     Row.ofList [("time", "2009"), ("amount", "7")],
     Row.ofList [("time", "+12345-01-01"), ("amount", "9")]]).run .empty).2

theorem isFact_ledgerStore : ∀ record ∈ ledgerStore.toList, ledgerSchema.IsFact record :=
  Store.Built.isFact (.load .strict 1 _ .empty)

theorem resolve?_year : ledgerSchema.resolve? "time.year" = some (.datePart 0 .year) := by
  decide

/-- The query for the amounts by year. -/
def yearsQuery : Query := { Query.all with drilldowns := ["time.year"] }

theorem plan_yearsQuery :
    yearsQuery.plan ledgerSchema = .ok
      ⟨["time.year"], [.datePart 0 .year], [], [], [], [(1, "amount")], [], 1, none, none⟩ := by
  rfl

end Sample

/-- The rows of a query by year are listed from the first year on. -/
theorem Store.followsTime_sample :
    Sample.ledgerDocument.validate = .ok Sample.ledgerSchema ∧
      Sample.ledgerSchema.resolve? "time.year" = some (.datePart 0 .year) ∧
      (∀ fact ∈ Sample.ledgerStore.toList, Sample.ledgerSchema.IsFact fact) ∧
      ∃ answer,
        Sample.ledgerStore.aggregate Sample.ledgerSchema 1 Sample.yearsQuery = .ok answer ∧
          IsListedByTime Sample.ledgerStore.toList 0 .year 0 .ascending answer.rows := by
  refine ⟨Sample.validate_ledger, Sample.resolve?_year, Sample.isFact_ledgerStore, ?_⟩
  have htime := Store.followsTime Sample.validate_ledger Sample.resolve?_year
    Sample.isFact_ledgerStore
  exact htime.queries _ _ Sample.plan_yearsQuery (Query.isSome_collection? rfl _) 0 .ascending
    (.keys rfl rfl rfl) 1

/-- After the year 9999 the labels start again with a 1. -/
theorem not_forall_labels_ascend :
    ¬ ∀ (s t : String) (p q : Period), Period.ofText? s = some p → Period.ofText? t = some q →
      (p.compare q).isLE = true → p.yearLabel ≤ q.yearLabel ∧ p.monthLabel ≤ q.monthLabel := by
  intro h
  have hlast : Period.ofText? "9999-12-31" = some ⟨⟨9999, 12, 31, by decide⟩, .day⟩ := by
    decide +kernel
  have hfirst : Period.ofText? "+10000-01-01" = some ⟨⟨10000, 1, 1, by decide⟩, .day⟩ := by
    decide +kernel
  exact absurd (h _ _ _ _ hlast hfirst (by decide)).1 (by decide +kernel)

end FactCube
