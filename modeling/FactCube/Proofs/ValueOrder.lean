import FactCube.Cube.Groups
import Mathlib

/-!
# The order of values

Cells hold regular values: their numbers are finite and no negative zero. On values of one type the
order that keys groups is the order of values, it is total and transitive, and regular values that
it does not tell apart are the same.

Results:
* `Value.groupOrder_eq_compare`: on values of one type the two orders say the same.
* `eq_of_compareKeys`: regular keys that compare as equal are equal.
* `compareKeys_eq_compareLists`: keys whose columns have the same types are ordered as lists of
  values.
-/

namespace FactCube

/-! ## Numbers -/

namespace Binary64

theorem toNat_toBits (x : Float) :
    x.toBits.toNat = (if negative x then signBit else 0) + magnitude x := by
  have hlt : x.toBits.toNat < 2 * signBit := x.toBits.toNat_lt
  unfold negative magnitude
  by_cases h : signBit ≤ x.toBits.toNat
  · rw [Nat.mod_eq_sub_mod h, Nat.mod_eq_of_lt (by omega)]
    simp only [h, decide_true, if_true]
    omega
  · rw [Nat.mod_eq_of_lt (by omega)]
    simp [h]

theorem eq_of_toBits_eq {x y : Float} (h : x.toBits = y.toBits) : x = y := by
  obtain ⟨⟨a, ha⟩⟩ := x
  obtain ⟨⟨b, hb⟩⟩ := y
  simp only [Float.toBits] at h
  subst h
  rfl

/-- A number is settled by its sign and its magnitude. -/
theorem eq_of_parts_eq {x y : Float} (hs : negative x = negative y)
    (hm : magnitude x = magnitude y) : x = y := by
  apply eq_of_toBits_eq
  apply UInt64.toNat_inj.1
  rw [toNat_toBits, toNat_toBits, hs, hm]

theorem isNotNumber_of_isFinite {x : Float} (h : isFinite x = true) : isNotNumber x = false := by
  simp only [isFinite, decide_eq_true_eq] at h
  simp only [isNotNumber, decide_eq_false_iff_not]
  omega

theorem place_eq {x : Float} (h : isNotNumber x = false) :
    place x = if negative x then -(magnitude x : Int) - 1 else magnitude x := by
  rw [place, h]
  rfl

/-- Numbers at one place are the same. -/
theorem eq_of_place_eq {x y : Float} (hx : isNotNumber x = false) (hy : isNotNumber y = false)
    (h : place x = place y) : x = y := by
  rw [place_eq hx, place_eq hy] at h
  cases hsx : negative x <;> cases hsy : negative y <;>
    simp only [hsx, hsy, if_true, if_false, Bool.false_eq_true] at h
  · exact eq_of_parts_eq (by rw [hsx, hsy]) (by omega)
  · omega
  · omega
  · exact eq_of_parts_eq (by rw [hsx, hsy]) (by omega)

theorem magnitude_zero : magnitude (make false 0) = 0 := by decide

theorem unsignedZero_idem (x : Float) : unsignedZero (unsignedZero x) = unsignedZero x := by
  by_cases h : magnitude x = 0
  · simp [unsignedZero, h]
  · simp [unsignedZero, h]

theorem isFinite_unsignedZero {x : Float} (h : isFinite x = true) :
    isFinite (unsignedZero x) = true := by
  unfold unsignedZero
  split
  · simp [isFinite, magnitude_zero, infinite, binade]
  · exact h

end Binary64

/-! ## Lawful comparisons -/

instance : Std.TransCmp Value.compareFloats :=
  inferInstanceAs (Std.TransCmp (compareOn fun x => Binary64.place (Binary64.unsignedZero x)))

instance : Std.TransCmp Date.compare :=
  inferInstanceAs (Std.TransCmp (compareLex (compareOn Date.year)
    (compareLex (compareOn Date.month) (compareOn Date.day))))

instance : Std.LawfulEqCmp Date.compare where
  eq_of_compare {a b} h := by
    obtain ⟨y, m, d, _⟩ := a
    obtain ⟨y', m', d', _⟩ := b
    simp only [Date.compare, Ordering.then_eq_eq, Std.LawfulEqOrd.compare_eq_iff_eq] at h
    obtain ⟨rfl, rfl, rfl⟩ := h
    rfl

theorem Granularity.eq_of_rank_eq {a b : Granularity} (h : a.rank = b.rank) : a = b := by
  cases a <;> cases b <;> simp_all [rank]

theorem transCmp_comap {α β : Type} {cmp : β → β → Ordering} [Std.TransCmp cmp] (f : α → β) :
    Std.TransCmp fun a b => cmp (f a) (f b) where
  eq_swap {a b} := @Std.OrientedCmp.eq_swap _ cmp _ (f a) (f b)
  isLE_trans {a b c} := @Std.TransCmp.isLE_trans _ cmp _ (f a) (f b) (f c)

instance : Std.TransCmp Period.compare :=
  have : Std.TransCmp fun a b : Period => a.date.compare b.date := transCmp_comap Period.date
  inferInstanceAs (Std.TransCmp (compareLex (fun a b : Period => a.date.compare b.date)
    (compareOn fun p => p.granularity.rank)))

instance : Std.LawfulEqCmp Period.compare where
  eq_of_compare {a b} h := by
    obtain ⟨d, g⟩ := a
    obtain ⟨d', g'⟩ := b
    simp only [Period.compare, Ordering.then_eq_eq, Std.LawfulEqCmp.compare_eq_iff_eq] at h
    rw [h.1, Granularity.eq_of_rank_eq h.2]

/-! ## Values -/

namespace Value

/-- Whether a value can be the content of a cell: a number is finite and no negative zero. -/
def Regular : Value → Prop
  | .float x => Binary64.isFinite x = true ∧ Binary64.unsignedZero x = x
  | _ => True

theorem groupOrder_eq_compare {a b : Value} (h : a.dataType = b.dataType) :
    a.groupOrder b = a.compare b := by
  cases a <;> cases b <;> first | rfl | simp [dataType] at h

/-- Regular values that the order of groups does not tell apart are the same. -/
theorem eq_of_groupOrder {a b : Value} (ha : a.Regular) (hb : b.Regular)
    (h : a.groupOrder b = .eq) : a = b := by
  cases a <;> cases b <;>
    simp only [groupOrder, rank, Std.LawfulEqCmp.compare_eq_iff_eq, reduceCtorEq] at h
  case string.string => rw [h]
  case integer.integer => rw [h]
  case float.float x y =>
    obtain ⟨hx, hx0⟩ := ha
    obtain ⟨hy, hy0⟩ := hb
    rw [compareFloats, hx0, hy0, Std.LawfulEqOrd.compare_eq_iff_eq] at h
    rw [Binary64.eq_of_place_eq (Binary64.isNotNumber_of_isFinite hx)
      (Binary64.isNotNumber_of_isFinite hy) h]
  case boolean.boolean => rw [h]
  case date.date => rw [h]
  all_goals simp at h

theorem groupOrder_of_rank_lt {a b : Value} (h : a.rank < b.rank) : a.groupOrder b = .lt := by
  cases a <;> cases b <;> first | rfl | simp [rank] at h

theorem groupOrder_swap (a b : Value) : a.groupOrder b = (b.groupOrder a).swap := by
  cases a <;> cases b
  case string.string => exact Std.OrientedOrd.eq_swap
  case integer.integer => exact Std.OrientedOrd.eq_swap
  case float.float x y => exact @Std.OrientedCmp.eq_swap _ compareFloats _ x y
  case boolean.boolean => exact Std.OrientedOrd.eq_swap
  case date.date p q => exact @Std.OrientedCmp.eq_swap _ Period.compare _ p q
  all_goals rfl

theorem rank_le_of_groupOrder {a b : Value} (h : (a.groupOrder b).isLE = true) :
    a.rank ≤ b.rank := by
  by_contra hlt
  rw [groupOrder_swap, groupOrder_of_rank_lt (by omega)] at h
  cases h

/-- The order of groups looks at the rank first; within one rank it is the order of one type. -/
instance : Std.TransCmp groupOrder where
  eq_swap {a b} := groupOrder_swap a b
  isLE_trans {a b c} hab hbc := by
    have h₁ := rank_le_of_groupOrder hab
    have h₂ := rank_le_of_groupOrder hbc
    by_cases hlt : a.rank < c.rank
    · rw [groupOrder_of_rank_lt hlt]
      rfl
    · have hb : a.rank = b.rank := by omega
      have hc : b.rank = c.rank := by omega
      cases a <;> cases b <;> try (simp [rank] at hb; done)
      all_goals cases c <;> try (simp [rank] at hc; done)
      · exact Std.TransOrd.isLE_trans hab hbc
      · exact Std.TransOrd.isLE_trans hab hbc
      · exact @Std.TransCmp.isLE_trans _ compareFloats _ _ _ _ hab hbc
      · exact Std.TransOrd.isLE_trans hab hbc
      · exact @Std.TransCmp.isLE_trans _ Period.compare _ _ _ _ hab hbc

theorem compare_swap (a b : Value) : a.compare b = (b.compare a).swap := by
  cases a <;> cases b
  case string.string => exact Std.OrientedOrd.eq_swap
  case integer.integer => exact Std.OrientedOrd.eq_swap
  case boolean.boolean => exact Std.OrientedOrd.eq_swap
  case date.date p q => exact @Std.OrientedCmp.eq_swap _ Period.compare _ p q
  case float.float x y => exact @Std.OrientedCmp.eq_swap _ compareFloats _ x y
  case integer.float n y => exact @Std.OrientedCmp.eq_swap _ compareFloats _ (Binary64.ofInt n) y
  case float.integer x n => exact @Std.OrientedCmp.eq_swap _ compareFloats _ x (Binary64.ofInt n)
  all_goals rfl

instance : Std.OrientedCmp Value.compare where
  eq_swap {a b} := compare_swap a b

/-- The order of lists of values: by the first value that differs. -/
def compareLists : List Value → List Value → Ordering := List.compareLex compare

instance : Std.OrientedCmp compareLists :=
  inferInstanceAs (Std.OrientedCmp (List.compareLex compare))

end Value

/-! ## Group keys -/

theorem compareKeys_eq_compareLex : compareKeys = List.compareLex Value.groupOrder := by
  funext as bs
  induction as generalizing bs with
  | nil => cases bs <;> rfl
  | cons a as ih =>
    cases bs with
    | nil => rfl
    | cons b bs => rw [compareKeys, ih, List.compareLex_cons_cons]

instance : Std.TransCmp compareKeys := by
  rw [compareKeys_eq_compareLex]
  infer_instance

/-- Keys of regular values that compare as equal are equal. -/
theorem eq_of_compareKeys {as bs : List Value} (has : ∀ a ∈ as, a.Regular)
    (hbs : ∀ b ∈ bs, b.Regular) (h : compareKeys as bs = .eq) : as = bs := by
  induction as generalizing bs with
  | nil => cases bs <;> simp_all [compareKeys]
  | cons a as ih =>
    cases bs with
    | nil => simp [compareKeys] at h
    | cons b bs =>
      rw [compareKeys, Ordering.then_eq_eq] at h
      rw [List.forall_mem_cons] at has hbs
      rw [Value.eq_of_groupOrder has.1 hbs.1 h.1, ih has.2 hbs.2 h.2]

/-- Keys whose columns have the same types are ordered as lists of values. -/
theorem compareKeys_eq_compareLists {as bs : List Value}
    (h : as.map Value.dataType = bs.map Value.dataType) :
    compareKeys as bs = Value.compareLists as bs := by
  induction as generalizing bs with
  | nil => cases bs <;> rfl
  | cons a as ih =>
    cases bs with
    | nil => rfl
    | cons b bs =>
      simp only [List.map_cons, List.cons.injEq] at h
      rw [compareKeys, Value.groupOrder_eq_compare h.1, ih h.2, Value.compareLists,
        List.compareLex_cons_cons]

end FactCube
