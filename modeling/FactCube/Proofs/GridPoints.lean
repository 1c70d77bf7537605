import FactCube.Proofs.Rounding

/-!
# Rounding rationals

A rational is rounded to the grid of binary64 numbers in the binade of its highest bit. So its place
on the grid depends on the rational only and not on the fraction it is given by, and a rational that
is a point of the grid is rounded to itself.

Results:
* `Binary64.log2Ratio_eq`: the highest bit of a quotient is its logarithm.
* `Binary64.nearest_congr`: equal fractions are rounded alike.
* `Binary64.nearest_gridSize`: a point of the grid is rounded to itself.
-/

namespace FactCube.Binary64

/-! ## The highest bit -/

/-- The logarithm of a number is the exponent of the power below it. -/
theorem log_eq_of_zpow {base : Nat} (hbase : 1 < base) {r : ℚ} {z : Int}
    (hlower : (base : ℚ) ^ z ≤ r) (hupper : r < (base : ℚ) ^ (z + 1)) : Int.log base r = z := by
  have hpos : 0 < r := lt_of_lt_of_le (zpow_pos (by exact_mod_cast hbase.trans' one_pos) z) hlower
  have hle := (Int.zpow_le_iff_le_log hbase hpos).1 hlower
  have hlt := (Int.lt_zpow_iff_log_lt hbase hpos).1 hupper
  omega

/-- Shifting one side or the other compares a quotient with a power of two. -/
theorem shifted_lt_iff {num den : Nat} (hden : den ≠ 0) (z : Int) :
    (if 0 ≤ z then num < den <<< z.toNat else num <<< (-z).toNat < den) ↔
      (num : ℚ) / den < 2 ^ z := by
  have hpos : (0 : ℚ) < den := by exact_mod_cast Nat.pos_of_ne_zero hden
  rw [div_lt_iff₀ hpos]
  split
  · rename_i hz
    obtain ⟨n, rfl⟩ := Int.eq_ofNat_of_zero_le hz
    rw [Int.toNat_natCast, Nat.shiftLeft_eq, zpow_natCast, mul_comm]
    exact_mod_cast Iff.rfl
  · rename_i hz
    obtain ⟨n, hn⟩ := Int.eq_ofNat_of_zero_le (show 0 ≤ -z by omega)
    rw [hn, Int.toNat_natCast, Nat.shiftLeft_eq, show z = -(n : Int) by omega, zpow_neg,
      zpow_natCast, ← div_eq_inv_mul, lt_div_iff₀ (by positivity)]
    exact_mod_cast Iff.rfl

/-- The highest bit of a quotient is its logarithm. -/
theorem log2Ratio_eq {num den : Nat} (hnum : num ≠ 0) (hden : den ≠ 0) :
    log2Ratio num den = Int.log 2 ((num : ℚ) / den) := by
  have hlower : (2 : ℚ) ^ num.log2 ≤ num := by exact_mod_cast Nat.log2_self_le hnum
  have hupper : (num : ℚ) < 2 ^ (num.log2 + 1) := by exact_mod_cast Nat.lt_log2_self
  have hlower' : (2 : ℚ) ^ den.log2 ≤ den := by exact_mod_cast Nat.log2_self_le hden
  have hupper' : (den : ℚ) < 2 ^ (den.log2 + 1) := by exact_mod_cast Nat.lt_log2_self
  have hpos : (0 : ℚ) < den := by exact_mod_cast Nat.pos_of_ne_zero hden
  set guess : Int := (num.log2 : Int) - den.log2 with hguess
  -- The guess is the exponent or the one above it.
  have hbelow : (2 : ℚ) ^ (guess - 1) ≤ num / den := by
    rw [le_div_iff₀ hpos]
    calc (2 : ℚ) ^ (guess - 1) * den ≤ 2 ^ (guess - 1) * 2 ^ (den.log2 + 1) := by gcongr
      _ = 2 ^ num.log2 := by
          rw [← zpow_natCast, ← zpow_natCast, ← zpow_add₀ two_ne_zero]
          congr 1
          push_cast
          omega
      _ ≤ num := hlower
  have habove : (num : ℚ) / den < 2 ^ (guess + 1) := by
    rw [div_lt_iff₀ hpos]
    calc (num : ℚ) < 2 ^ (num.log2 + 1) := hupper
      _ = 2 ^ (guess + 1) * 2 ^ den.log2 := by
          rw [← zpow_natCast, ← zpow_natCast, ← zpow_add₀ two_ne_zero]
          congr 1
          push_cast
          omega
      _ ≤ 2 ^ (guess + 1) * den := by gcongr
  rw [log2Ratio, ← hguess]
  simp only [shifted_lt_iff hden]
  split
  · rename_i hgreat
    exact (log_eq_of_zpow one_lt_two hbelow (by simpa using hgreat)).symm
  · rename_i hgreat
    exact (log_eq_of_zpow one_lt_two (by simpa using hgreat) habove).symm

/-! ## Equal fractions -/

theorem roundHalfEven_mul_left {k : Nat} (hk : 0 < k) (num den : Nat) :
    roundHalfEven (k * num) (k * den) = roundHalfEven num den := by
  have hless : ∀ a b : Nat, k * a < k * b ↔ a < b := fun _ _ => Nat.mul_lt_mul_left hk
  unfold roundHalfEven
  simp only [Nat.mul_div_mul_left _ _ hk, Nat.mul_mod_mul_left, Nat.mul_left_comm 2 k, hless]

theorem roundHalfEven_congr {num den num' den' : Nat} (hden : den ≠ 0) (hden' : den' ≠ 0)
    (h : num * den' = num' * den) : roundHalfEven num den = roundHalfEven num' den' := by
  rw [← roundHalfEven_mul_left (Nat.pos_of_ne_zero hden') num den,
    ← roundHalfEven_mul_left (Nat.pos_of_ne_zero hden) num' den', Nat.mul_comm den' num, h,
    Nat.mul_comm num' den, Nat.mul_comm den' den]

/-- Equal fractions are rounded alike. -/
theorem nearest_congr {num den num' den' : Nat} (hden : den ≠ 0) (hden' : den' ≠ 0)
    (h : num * den' = num' * den) : nearest num den = nearest num' den' := by
  by_cases hnum : num = 0
  · rw [hnum, Nat.zero_mul] at h
    rw [nearest, nearest, if_pos hnum, if_pos ((Nat.mul_eq_zero.1 h.symm).resolve_right hden)]
  have hnum' : num' ≠ 0 := by
    rintro rfl
    rw [Nat.zero_mul] at h
    exact hnum ((Nat.mul_eq_zero.1 h).resolve_right hden')
  have hratio : (num : ℚ) / den = num' / den' := by
    rw [div_eq_div_iff (by exact_mod_cast hden) (by exact_mod_cast hden')]
    exact_mod_cast h
  have hlog : log2Ratio num den = log2Ratio num' den' := by
    rw [log2Ratio_eq hnum hden, log2Ratio_eq hnum' hden', hratio]
  rw [nearest, nearest, if_neg hnum, if_neg hnum', hlog]
  generalize (log2Ratio num' den' + 1022).toNat = exponent
  have hlow : roundHalfEven (num <<< (1074 - exponent)) den =
      roundHalfEven (num' <<< (1074 - exponent)) den' := by
    rw [Nat.shiftLeft_eq, Nat.shiftLeft_eq]
    exact roundHalfEven_congr hden hden' (by rw [Nat.mul_right_comm, h, Nat.mul_right_comm])
  have hhigh : roundHalfEven num (den <<< (exponent - 1074)) =
      roundHalfEven num' (den' <<< (exponent - 1074)) := by
    have hpow : 2 ^ (exponent - 1074) ≠ 0 := (Nat.two_pow_pos _).ne'
    rw [Nat.shiftLeft_eq, Nat.shiftLeft_eq]
    refine roundHalfEven_congr (Nat.mul_ne_zero hden hpow) (Nat.mul_ne_zero hden' hpow) ?_
    rw [← Nat.mul_assoc, h, Nat.mul_assoc]
  simp only [hlow, hhigh]

/-! ## Points of the grid -/

/-- How many of the least positive number make one, `2^1074`. -/
def gridUnit : Nat := 2 ^ 1074

theorem gridUnit_eq {n : Nat} (h : n = 1074) : gridUnit = 2 ^ n := by rw [h, gridUnit]

theorem gridUnit_ne_zero : gridUnit ≠ 0 := by
  obtain ⟨n, hn⟩ : ∃ n, gridUnit = 2 ^ n := ⟨_, gridUnit_eq rfl⟩
  rw [hn]
  exact (Nat.two_pow_pos n).ne'

theorem cast_gridUnit : (gridUnit : ℚ) = 2 ^ 1074 := by
  rw [gridUnit, Nat.cast_pow, Nat.cast_ofNat]

theorem magnitudeRatio_snd (b : Nat) : ∃ k, (magnitudeRatio b).2 = 2 ^ k := by
  have hshift : ∀ n, ∃ k, 1 <<< n = 2 ^ k := fun n => ⟨n, Nat.one_shiftLeft n⟩
  rw [magnitudeRatio]
  by_cases hzero : b / binade = 0
  · rw [if_pos hzero]
    exact hshift 1074
  · rw [if_neg hzero]
    split
    · exact hshift _
    · exact ⟨0, rfl⟩

/-- Below the first binade a point counts the least positive number. -/
theorem nearest_subnormal {b : Nat} (hb : b < binade) : nearest b gridUnit = b := by
  by_cases hzero : b = 0
  · rw [hzero, nearest, if_pos rfl]
  have hlog : log2Ratio b gridUnit < -1022 := by
    have hpos : (0 : ℚ) < b := by exact_mod_cast Nat.pos_of_ne_zero hzero
    have hunit : (0 : ℚ) < gridUnit := by exact_mod_cast Nat.pos_of_ne_zero gridUnit_ne_zero
    rw [log2Ratio_eq hzero gridUnit_ne_zero,
      ← Int.lt_zpow_iff_log_lt one_lt_two (div_pos hpos hunit)]
    have hlt : (b : ℚ) < 2 ^ 52 := by exact_mod_cast hb
    have hsplit : (2 : ℚ) ^ 52 = 2 ^ (-1022 : Int) * gridUnit := by
      rw [cast_gridUnit, ← zpow_natCast, ← zpow_natCast, ← zpow_add₀ two_ne_zero]
      rfl
    rwa [Nat.cast_ofNat, div_lt_iff₀ hunit, ← hsplit]
  rw [nearest, if_neg hzero]
  generalize hexponent : (log2Ratio b gridUnit + 1022).toNat = exponent
  have hlowest : exponent = 0 := hexponent ▸ Int.toNat_of_nonpos (by linarith)
  have hunit : gridUnit = 2 ^ (1074 - exponent) := gridUnit_eq (by omega)
  simp only [Nat.shiftLeft_eq]
  rw [if_pos (by omega), ← hunit, roundHalfEven_mul b (Nat.pos_of_ne_zero gridUnit_ne_zero),
    hlowest, Nat.zero_mul, Nat.zero_add]
  exact min_eq_left (hb.le.trans (by decide))

/-- In a binade a point is a significand of 53 bits times a power of two. -/
theorem nearest_normal {exponent s : Nat} (hlower : binade ≤ s) (hupper : s < 2 * binade)
    (hexponent : exponent ≤ 2045) :
    nearest (s * 2 ^ exponent) gridUnit = exponent * binade + s := by
  have hne : s * 2 ^ exponent ≠ 0 :=
    Nat.mul_ne_zero (Nat.pos_of_ne_zero (by simp only [binade] at hlower; omega)).ne'
      (Nat.two_pow_pos exponent).ne'
  have hlog : log2Ratio (s * 2 ^ exponent) gridUnit = (exponent : Int) - 1022 := by
    have hscaled : ((s * 2 ^ exponent : Nat) : ℚ) / gridUnit =
        s * 2 ^ ((exponent : Int) - 1074) := by
      rw [zpow_sub₀ two_ne_zero, cast_gridUnit, Nat.cast_mul, Nat.cast_pow, Nat.cast_ofNat,
        mul_div_assoc]
      rfl
    have hsplit : ∀ n : Int, (2 : ℚ) ^ (52 + n) = 2 ^ (52 : Nat) * 2 ^ n := fun n => by
      rw [zpow_add₀ two_ne_zero]
      rfl
    rw [log2Ratio_eq hne gridUnit_ne_zero, hscaled]
    apply log_eq_of_zpow one_lt_two
    · rw [show (exponent : Int) - 1022 = 52 + (exponent - 1074) by omega]
      push_cast
      rw [hsplit]
      gcongr
      exact_mod_cast hlower
    · rw [show (exponent : Int) - 1022 + 1 = 52 + (1 + (exponent - 1074)) by omega]
      push_cast
      rw [hsplit, zpow_add₀ two_ne_zero, zpow_one, ← mul_assoc]
      gcongr
      exact_mod_cast (show s < 2 ^ 52 * 2 by rw [Nat.mul_comm]; exact hupper)
  have htoNat : ((exponent : Int) - 1022 + 1022).toNat = exponent := by omega
  rw [nearest, if_neg hne, hlog]
  simp only [htoNat, Nat.shiftLeft_eq]
  have hsignificand : (if exponent ≤ 1074 then
      roundHalfEven (s * 2 ^ exponent * 2 ^ (1074 - exponent)) gridUnit
      else roundHalfEven (s * 2 ^ exponent) (gridUnit * 2 ^ (exponent - 1074))) = s := by
    split
    · rename_i hsmall
      rw [Nat.mul_assoc, ← Nat.pow_add, ← gridUnit_eq (Nat.add_sub_cancel' hsmall)]
      exact roundHalfEven_mul s (Nat.pos_of_ne_zero gridUnit_ne_zero)
    · rename_i hgreat
      rw [gridUnit_eq rfl, ← Nat.pow_add, Nat.add_sub_cancel' (by omega)]
      exact roundHalfEven_mul s (Nat.two_pow_pos _)
  rw [hsignificand]
  refine min_eq_left ?_
  have hmul : exponent * binade ≤ 2045 * binade := Nat.mul_le_mul_right _ hexponent
  simp only [infinite]
  omega

/-- A point of the grid is rounded to itself. -/
theorem nearest_gridSize {b : Nat} (h : b < infinite) : nearest (gridSize b) gridUnit = b := by
  have hdiv := Nat.div_add_mod b binade
  have hmod : b % binade < binade := Nat.mod_lt _ (by decide)
  have hlt : b / binade < 2047 := Nat.div_lt_of_lt_mul (by rwa [Nat.mul_comm])
  rw [gridSize]
  cases hexponent : b / binade with
  | zero =>
    rw [hexponent, Nat.mul_zero, Nat.zero_add] at hdiv
    rw [if_pos rfl, nearest_subnormal hmod, hdiv]
  | succ exponent =>
    rw [hexponent] at hdiv hlt
    rw [if_neg (Nat.succ_ne_zero _), Nat.add_sub_cancel,
      nearest_normal (Nat.le_add_left _ _) (by omega) (by omega)]
    linarith

/-- The rational of a magnitude is rounded to the magnitude, by whatever fraction it is given. -/
theorem nearest_of_value {b num den : Nat} (h : b < infinite) (hden : den ≠ 0)
    (hvalue : (num : ℚ) / den = magnitudeValue b) : nearest num den = b := by
  rw [← nearest_gridSize h]
  rw [← nearest_gridSize h] at hvalue
  refine nearest_congr hden gridUnit_ne_zero ?_
  rw [nearest_gridSize h, magnitudeValue_eq, ← cast_gridUnit,
    div_eq_div_iff (by exact_mod_cast hden) (by exact_mod_cast gridUnit_ne_zero)] at hvalue
  exact_mod_cast hvalue

/-- The magnitudes of finite numbers lie above `2^-1074`, unless they are zero, and below `2^1024`. -/
theorem magnitudeValue_bounds {b : Nat} (hpos : 0 < b) (h : b < infinite) :
    (2 : ℚ) ^ (-1074 : Int) ≤ magnitudeValue b ∧ magnitudeValue b < 2 ^ (1024 : Int) := by
  constructor
  · have hone : magnitudeValue 1 = 2 ^ (-1074 : Int) := by
      rw [magnitudeValue_eq, show gridSize 1 = 1 by decide, zpow_neg]
      norm_num
    exact hone ▸ magnitudeValue_strictMono.monotone hpos
  · have htop : magnitudeValue infinite = 2 ^ (1024 : Int) := by
      have hsize : gridSize infinite = 2 ^ 52 * 2 ^ (2047 - 1) := by
        rw [gridSize, show infinite / binade = 2047 by decide, if_neg (by decide),
          show infinite % binade + binade = 2 ^ 52 by decide]
      rw [magnitudeValue_eq, hsize, Nat.cast_mul, Nat.cast_pow, Nat.cast_pow, Nat.cast_ofNat,
        div_eq_iff (pow_ne_zero _ two_ne_zero), ← zpow_natCast, ← zpow_natCast, ← zpow_natCast,
        ← zpow_add₀ two_ne_zero, ← zpow_add₀ two_ne_zero]
      rfl
    exact htop ▸ magnitudeValue_strictMono h

end FactCube.Binary64
