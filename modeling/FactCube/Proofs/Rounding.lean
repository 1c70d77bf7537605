import FactCube.Proofs.Patterns
import FactCube.Proofs.ValueOrder

/-!
# Rounding integers

An integer is rounded to the grid of binary64 numbers by the place of its highest bit, which gives
the binade, and by its 53 highest bits, rounded to the nearest with ties to even. Rounding keeps the
order of integers, so it can make two of them one but never put them the wrong way round, and up to
`2^53` it changes nothing.

Results:
* `Binary64.compare_position`: numbers are compared as the rationals they stand for.
* `Binary64.nearest_mono`, `Binary64.position_ofInt_mono`: rounding keeps the order.
* `Binary64.toRat_ofInt`: an integer of size at most `2^53` is rounded to itself.
-/

namespace FactCube.Binary64

/-! ## Rounding a quotient -/

/-- Rounding stays between the quotient and the next integer. -/
theorem le_roundHalfEven (num den : Nat) : num / den ≤ roundHalfEven num den := by
  unfold roundHalfEven
  simp only
  split_ifs <;> omega

theorem roundHalfEven_le (num den : Nat) : roundHalfEven num den ≤ num / den + 1 := by
  unfold roundHalfEven
  simp only
  split_ifs <;> omega

/-- Rounding keeps the order of the numerators. -/
theorem roundHalfEven_mono {m n : Nat} (den : Nat) (h : m ≤ n) :
    roundHalfEven m den ≤ roundHalfEven n den := by
  have hdiv : m / den ≤ n / den := Nat.div_le_div_right h
  by_cases hlt : m / den < n / den
  · exact (roundHalfEven_le m den).trans (hlt.trans_le (le_roundHalfEven n den))
  · -- One quotient: the remainders are in order, and so are the ways they are rounded.
    have heq : m / den = n / den := by omega
    have hmod : m % den ≤ n % den := by
      have hm := Nat.div_add_mod m den
      have hn := Nat.div_add_mod n den
      rw [heq] at hm
      omega
    unfold roundHalfEven
    simp only [heq]
    split_ifs <;> omega

/-! ## The significand of an integer -/

/-- The 53 highest bits of an integer, rounded. -/
def significand (n : Nat) : Nat :=
  if n.log2 ≤ 52 then n * 2 ^ (52 - n.log2) else roundHalfEven n (2 ^ (n.log2 - 52))

/-- An integer is rounded in the binade of its highest bit. -/
theorem nearest_eq {n : Nat} (h : n ≠ 0) :
    nearest n 1 = min ((n.log2 + 1022) * binade + significand n) infinite := by
  have hratio : log2Ratio n 1 = n.log2 := by
    have hone : (1 : Nat).log2 = 0 := by decide
    have hself : ¬n < 2 ^ n.log2 := Nat.not_lt.2 (Nat.log2_self_le h)
    simp only [log2Ratio, hone, Nat.cast_zero, sub_zero, Nat.cast_nonneg, if_true,
      Int.toNat_natCast, Nat.shiftLeft_eq, one_mul, hself, if_false]
  have hexponent : ((n.log2 : Int) + 1022).toNat = n.log2 + 1022 := by omega
  have hsignificand :
      (if n.log2 + 1022 ≤ 1074 then roundHalfEven (n <<< (1074 - (n.log2 + 1022))) 1
        else roundHalfEven n (1 <<< (n.log2 + 1022 - 1074))) = significand n := by
    unfold significand
    by_cases hlog : n.log2 ≤ 52
    · rw [if_pos hlog, if_pos (by omega), show 1074 - (n.log2 + 1022) = 52 - n.log2 by omega,
        Nat.shiftLeft_eq]
      have hmul := roundHalfEven_mul (n * 2 ^ (52 - n.log2)) Nat.one_pos
      rwa [mul_one] at hmul
    · rw [if_neg hlog, if_neg (by omega), show n.log2 + 1022 - 1074 = n.log2 - 52 by omega,
        Nat.shiftLeft_eq, one_mul]
  rw [nearest, if_neg h, hratio]
  simp only [hexponent, hsignificand]

theorem nearest_le_infinite (n : Nat) : nearest n 1 ≤ infinite := by
  by_cases h : n = 0
  · rw [nearest, if_pos h]
    exact Nat.zero_le _
  · rw [nearest_eq h]
    exact min_le_right _ _

/-- The significand has 53 bits. -/
theorem binade_le_significand {n : Nat} (h : n ≠ 0) : binade ≤ significand n := by
  have hself := Nat.log2_self_le h
  unfold significand
  by_cases hlog : n.log2 ≤ 52
  · rw [if_pos hlog]
    calc binade = 2 ^ n.log2 * 2 ^ (52 - n.log2) := by
          rw [← pow_add, Nat.add_sub_cancel' hlog]
          rfl
      _ ≤ n * 2 ^ (52 - n.log2) := Nat.mul_le_mul_right _ hself
  · rw [if_neg hlog]
    have hpow : binade * 2 ^ (n.log2 - 52) = 2 ^ n.log2 := by
      rw [show binade = 2 ^ 52 from rfl, ← pow_add, Nat.add_sub_cancel' (by omega)]
    calc binade = roundHalfEven (binade * 2 ^ (n.log2 - 52)) (2 ^ (n.log2 - 52)) :=
          (roundHalfEven_mul binade (Nat.two_pow_pos _)).symm
      _ ≤ roundHalfEven n (2 ^ (n.log2 - 52)) := roundHalfEven_mono _ (hpow ▸ hself)

/-- Rounding can carry the significand to the first one of the next binade, and no further. -/
theorem significand_le (n : Nat) : significand n ≤ 2 * binade := by
  have hlt : n ≤ 2 ^ (n.log2 + 1) := Nat.lt_log2_self.le
  unfold significand
  by_cases hlog : n.log2 ≤ 52
  · rw [if_pos hlog]
    calc n * 2 ^ (52 - n.log2) ≤ 2 ^ (n.log2 + 1) * 2 ^ (52 - n.log2) := Nat.mul_le_mul_right _ hlt
      _ = 2 * binade := by
          rw [← pow_add, show n.log2 + 1 + (52 - n.log2) = 53 by omega]
          rfl
  · rw [if_neg hlog]
    have hpow : 2 * binade * 2 ^ (n.log2 - 52) = 2 ^ (n.log2 + 1) := by
      rw [show 2 * binade = 2 ^ 53 from rfl, ← pow_add,
        show 53 + (n.log2 - 52) = n.log2 + 1 by omega]
    calc roundHalfEven n (2 ^ (n.log2 - 52))
        ≤ roundHalfEven (2 * binade * 2 ^ (n.log2 - 52)) (2 ^ (n.log2 - 52)) :=
          roundHalfEven_mono _ (hpow ▸ hlt)
      _ = 2 * binade := roundHalfEven_mul _ (Nat.two_pow_pos _)

theorem significand_mono {m n : Nat} (hlog : m.log2 = n.log2) (h : m ≤ n) :
    significand m ≤ significand n := by
  unfold significand
  rw [hlog]
  split
  · exact Nat.mul_le_mul_right _ h
  · exact roundHalfEven_mono _ h

/-- Rounding keeps the order: within a binade by the significands, and across binades because a
significand that is carried is the first one of the next binade. -/
theorem nearest_mono {m n : Nat} (h : m ≤ n) : nearest m 1 ≤ nearest n 1 := by
  by_cases hm : m = 0
  · rw [nearest, if_pos hm]
    exact Nat.zero_le _
  have hn : n ≠ 0 := by omega
  rw [nearest_eq hm, nearest_eq hn]
  refine min_le_min_right _ ?_
  have hle : m.log2 ≤ n.log2 := by
    rw [Nat.log2_eq_log_two, Nat.log2_eq_log_two]
    exact Nat.log_mono_right h
  by_cases hlog : m.log2 = n.log2
  · have hsignificand := significand_mono hlog h
    rw [hlog]
    omega
  · have hupper := significand_le m
    have hlower := binade_le_significand hn
    have hnext : (m.log2 + 1 + 1022) * binade ≤ (n.log2 + 1022) * binade :=
      Nat.mul_le_mul_right _ (by omega)
    have hsplit : (m.log2 + 1 + 1022) * binade = (m.log2 + 1022) * binade + binade := by ring
    omega

theorem nearest_pos {n : Nat} (h : n ≠ 0) : 0 < nearest n 1 := by
  rw [nearest_eq h, lt_min_iff]
  have hlower := binade_le_significand h
  exact ⟨by simp only [binade] at *; omega, by decide⟩

/-! ## The number of a magnitude -/

/-- The rational a finite magnitude stands for. -/
def magnitudeValue (b : Nat) : ℚ := (magnitudeRatio b).1 / (magnitudeRatio b).2

/-- A magnitude counted in the least positive number, `2^-1074`. -/
def gridSize (b : Nat) : Nat :=
  if b / binade = 0 then b % binade else (b % binade + binade) * 2 ^ (b / binade - 1)

/-- The next magnitude is greater: within a binade the significand grows by one, and a binade starts
where the one below it would go on. -/
theorem gridSize_lt_succ (b : Nat) : gridSize b < gridSize (b + 1) := by
  unfold gridSize
  by_cases hwithin : b % binade + 1 < binade
  · have hdiv : (b + 1) / binade = b / binade := by
      simp only [binade] at *
      omega
    have hmod : (b + 1) % binade = b % binade + 1 := by
      simp only [binade] at *
      omega
    rw [hdiv, hmod]
    split
    · exact Nat.lt_succ_self _
    · exact Nat.mul_lt_mul_of_pos_right (by omega) (Nat.two_pow_pos _)
  · have hdiv : (b + 1) / binade = b / binade + 1 := by
      simp only [binade] at *
      omega
    have hmod : (b + 1) % binade = 0 := by
      simp only [binade] at *
      omega
    have hlt : b % binade < binade := Nat.mod_lt _ (by decide)
    rw [hdiv, hmod, if_neg (Nat.succ_ne_zero _), Nat.add_sub_cancel, Nat.zero_add]
    split
    · rename_i hzero
      rw [hzero, pow_zero, mul_one]
      exact hlt
    · rename_i hne
      calc (b % binade + binade) * 2 ^ (b / binade - 1)
          < 2 * binade * 2 ^ (b / binade - 1) :=
            Nat.mul_lt_mul_of_pos_right (by omega) (Nat.two_pow_pos _)
        _ = binade * 2 ^ (b / binade) := by
            rw [mul_comm 2, mul_assoc, ← pow_succ', Nat.sub_add_cancel (Nat.pos_of_ne_zero hne)]

theorem magnitudeValue_eq (b : Nat) : magnitudeValue b = gridSize b / 2 ^ 1074 := by
  rw [magnitudeValue, magnitudeRatio, gridSize]
  generalize b / binade = exponent
  generalize b % binade = fraction
  by_cases hzero : exponent = 0
  · rw [if_pos hzero, if_pos hzero]
    simp only [Nat.shiftLeft_eq, one_mul, Nat.cast_pow, Nat.cast_ofNat]
  rw [if_neg hzero, if_neg hzero]
  by_cases hbelow : exponent < 1075
  · have hpow : (2 : ℚ) ^ 1074 = 2 ^ (1075 - exponent) * 2 ^ (exponent - 1) := by
      rw [← pow_add, show 1075 - exponent + (exponent - 1) = 1074 by omega]
    rw [if_pos hbelow, hpow]
    simp only [Nat.shiftLeft_eq, one_mul, Nat.cast_mul, Nat.cast_pow, Nat.cast_ofNat]
    exact (mul_div_mul_right _ _ (pow_ne_zero _ two_ne_zero)).symm
  · have hpow : (2 : ℚ) ^ (exponent - 1) = 2 ^ (exponent - 1075) * 2 ^ 1074 := by
      rw [← pow_add, show exponent - 1075 + 1074 = exponent - 1 by omega]
    rw [if_neg hbelow]
    simp only [Nat.shiftLeft_eq, Nat.cast_mul, Nat.cast_pow, Nat.cast_ofNat, Nat.cast_one, div_one]
    rw [hpow, ← mul_assoc]
    exact (mul_div_cancel_right₀ _ (pow_ne_zero _ two_ne_zero)).symm

/-- Magnitudes are in the order of the numbers they stand for. -/
theorem magnitudeValue_strictMono : StrictMono magnitudeValue := by
  intro a b h
  have hlt : gridSize a < gridSize b := strictMono_nat_of_lt_succ gridSize_lt_succ h
  rw [magnitudeValue_eq, magnitudeValue_eq]
  gcongr

theorem magnitudeValue_zero : magnitudeValue 0 = 0 := by simp [magnitudeValue, magnitudeRatio]

theorem magnitudeValue_nonneg (b : Nat) : 0 ≤ magnitudeValue b := by
  rw [← magnitudeValue_zero]
  exact magnitudeValue_strictMono.monotone (Nat.zero_le b)

/-! ## Integers on the grid -/

/-- In a binade above the lowest a magnitude stands for a power of two times its significand. -/
theorem magnitudeValue_normal {exponent s : Nat} (hexponent : exponent ≤ 52) (hlower : binade ≤ s)
    (hupper : s < 2 * binade) :
    magnitudeValue ((exponent + 1022) * binade + s) = s / 2 ^ (52 - exponent) := by
  have hdiv : ((exponent + 1022) * binade + s) / binade = exponent + 1022 + 1 := by
    simp only [binade] at *
    omega
  have hmod : ((exponent + 1022) * binade + s) % binade + binade = s := by
    simp only [binade] at *
    omega
  have hpow : (2 : ℚ) ^ 1074 = 2 ^ (52 - exponent) * 2 ^ (exponent + 1022) := by
    rw [← pow_add, show 52 - exponent + (exponent + 1022) = 1074 by omega]
  rw [magnitudeValue_eq, gridSize, hdiv, hmod, if_neg (Nat.succ_ne_zero _), Nat.add_sub_cancel,
    hpow, Nat.cast_mul, Nat.cast_pow, Nat.cast_ofNat]
  exact mul_div_mul_right _ _ (pow_ne_zero _ two_ne_zero)

/-- An integer of at most 53 bits is on the grid. -/
theorem magnitudeValue_nearest {n : Nat} (h : n ≤ 2 ^ 53) : magnitudeValue (nearest n 1) = n := by
  by_cases hzero : n = 0
  · rw [hzero, nearest, if_pos rfl, magnitudeValue_zero]
    rfl
  by_cases htop : n = 2 ^ 53
  · -- The one integer of 54 bits is a power of two.
    rw [htop, show nearest (2 ^ 53) 1 = 1076 * binade by decide, magnitudeValue,
      show magnitudeRatio (1076 * binade) = (2 ^ 53, 1) by decide]
    norm_num
  have hlog : n.log2 ≤ 52 := by
    have hlt := (Nat.log2_lt hzero).2 (show n < 2 ^ 53 by omega)
    omega
  have hsignificand : significand n = n * 2 ^ (52 - n.log2) := if_pos hlog
  have hupper : significand n < 2 * binade := by
    rw [hsignificand]
    calc n * 2 ^ (52 - n.log2) < 2 ^ (n.log2 + 1) * 2 ^ (52 - n.log2) :=
          Nat.mul_lt_mul_of_pos_right Nat.lt_log2_self (Nat.two_pow_pos _)
      _ = 2 * binade := by
          rw [← pow_add, show n.log2 + 1 + (52 - n.log2) = 53 by omega]
          rfl
  have hfinite : (n.log2 + 1022) * binade + significand n ≤ infinite := by
    have hmul : (n.log2 + 1022) * binade ≤ 1074 * binade := Nat.mul_le_mul_right _ (by omega)
    simp only [infinite]
    omega
  rw [nearest_eq hzero, min_eq_left hfinite,
    magnitudeValue_normal hlog (binade_le_significand hzero) hupper, hsignificand]
  push_cast
  field_simp

/-! ## The number of a pattern -/

/-- The rational a finite number stands for. -/
def toRat (x : Float) : ℚ :=
  if negative x then -magnitudeValue (magnitude x) else magnitudeValue (magnitude x)

theorem toRat_unsignedZero (x : Float) : toRat (unsignedZero x) = toRat x := by
  unfold unsignedZero
  by_cases hzero : magnitude x = 0
  · rw [if_pos hzero, toRat, toRat, magnitude_zero, hzero, magnitudeValue_zero, neg_zero, ite_self,
      ite_self]
  · rw [if_neg hzero]

/-- The place of a number, the two zeros alike; numbers are compared by it. -/
def position (x : Float) : Int := place (unsignedZero x)

theorem isNotNumber_unsignedZero {x : Float} (h : isNotNumber x = false) :
    isNotNumber (unsignedZero x) = false := by
  unfold unsignedZero
  split
  · decide
  · exact h

/-- Numbers at one place, the two zeros alike, are one number. -/
theorem toRat_eq_of_position_eq {x y : Float} (hx : isNotNumber x = false)
    (hy : isNotNumber y = false) (h : position x = position y) : toRat x = toRat y := by
  have heq : unsignedZero x = unsignedZero y :=
    eq_of_place_eq (isNotNumber_unsignedZero hx) (isNotNumber_unsignedZero hy) h
  rw [← toRat_unsignedZero x, heq, toRat_unsignedZero]

theorem negative_unsignedZero {x : Float} (h : magnitude (unsignedZero x) = 0) :
    negative (unsignedZero x) = false := by
  unfold unsignedZero at *
  split
  · decide
  · rename_i hne
    rw [if_neg hne] at h
    exact absurd h hne

/-- Places are in the order of the numbers. -/
theorem toRat_lt_of_position_lt {x y : Float} (hx : isNotNumber x = false)
    (hy : isNotNumber y = false) (h : position x < position y) : toRat x < toRat y := by
  rw [position, position, place_eq (isNotNumber_unsignedZero hx),
    place_eq (isNotNumber_unsignedZero hy)] at h
  rw [← toRat_unsignedZero x, ← toRat_unsignedZero y, toRat, toRat]
  cases hsx : negative (unsignedZero x) <;> cases hsy : negative (unsignedZero y) <;>
    simp only [hsx, hsy, if_true, if_false, Bool.false_eq_true] at h ⊢
  · exact magnitudeValue_strictMono (by omega)
  · omega
  · have hne : magnitude (unsignedZero x) ≠ 0 := fun hzero =>
      absurd (negative_unsignedZero hzero) (by simp [hsx])
    have hpos := magnitudeValue_strictMono (Nat.pos_of_ne_zero hne)
    have hnonneg := magnitudeValue_nonneg (magnitude (unsignedZero y))
    rw [magnitudeValue_zero] at hpos
    linarith
  · exact neg_lt_neg (magnitudeValue_strictMono (by omega))

/-- Numbers are compared as the rationals they stand for. -/
theorem compare_position {x y : Float} (hx : isNotNumber x = false) (hy : isNotNumber y = false) :
    Ord.compare (position x) (position y) = Ord.compare (toRat x) (toRat y) := by
  rcases lt_trichotomy (position x) (position y) with hlt | heq | hgt
  · rw [compare_lt_iff_lt.2 hlt, compare_lt_iff_lt.2 (toRat_lt_of_position_lt hx hy hlt)]
  · rw [compare_eq_iff_eq.2 heq, compare_eq_iff_eq.2 (toRat_eq_of_position_eq hx hy heq)]
  · rw [compare_gt_iff_gt.2 hgt, compare_gt_iff_gt.2 (toRat_lt_of_position_lt hy hx hgt)]

/-! ## Rounded integers -/

theorem magnitude_ofInt (n : Int) : magnitude (ofInt n) = nearest n.natAbs 1 :=
  magnitude_make (nearest_le_infinite _)

theorem negative_ofInt (n : Int) : negative (ofInt n) = decide (n < 0) :=
  negative_make (nearest_le_infinite _)

theorem isNotNumber_ofInt (n : Int) : isNotNumber (ofInt n) = false := by
  rw [isNotNumber, magnitude_ofInt, decide_eq_false_iff_not, not_lt]
  exact nearest_le_infinite _

/-- No integer is rounded to the negative zero. -/
theorem unsignedZero_ofInt (n : Int) : unsignedZero (ofInt n) = ofInt n := by
  by_cases hzero : n = 0
  · rw [hzero]
    decide
  · have hpos := nearest_pos (Int.natAbs_ne_zero.2 hzero)
    rw [unsignedZero, magnitude_ofInt, if_neg (by omega)]

theorem position_ofInt (n : Int) :
    position (ofInt n) =
      if n < 0 then -(nearest n.natAbs 1 : Int) - 1 else nearest n.natAbs 1 := by
  rw [position, unsignedZero_ofInt, place_eq (isNotNumber_ofInt n), magnitude_ofInt, negative_ofInt]
  simp only [decide_eq_true_eq]

/-- Rounding keeps the order of integers. -/
theorem position_ofInt_mono {m n : Int} (h : m ≤ n) :
    position (ofInt m) ≤ position (ofInt n) := by
  rw [position_ofInt, position_ofInt]
  by_cases hm : m < 0
  · by_cases hn : n < 0
    · have hle := nearest_mono (show n.natAbs ≤ m.natAbs by omega)
      rw [if_pos hm, if_pos hn]
      omega
    · rw [if_pos hm, if_neg hn]
      omega
  · have hle := nearest_mono (show m.natAbs ≤ n.natAbs by omega)
    rw [if_neg hm, if_neg (by omega)]
    omega

/-- An integer of size at most `2^53` is rounded to itself. -/
theorem toRat_ofInt {n : Int} (h : n.natAbs ≤ 2 ^ 53) : toRat (ofInt n) = n := by
  rw [toRat, magnitude_ofInt, negative_ofInt, magnitudeValue_nearest h]
  by_cases hn : n < 0
  · rw [decide_eq_true hn, if_pos rfl, ← Int.cast_natCast, Int.ofNat_natAbs_of_nonpos hn.le,
      Int.cast_neg, neg_neg]
  · rw [decide_eq_false hn, if_neg Bool.false_ne_true, ← Int.cast_natCast,
      Int.natAbs_of_nonneg (by omega)]

end FactCube.Binary64
