import FactCube.Decimal.Layout
import FactCube.Decimal.Numeral
import FactCube.Proofs.GridPoints

/-!
# Decimals that read back

A decimal stands for a rational, and the magnitude it is read as depends on this rational only. So
zeros at the end can be cut and exponents shifted. The search for the shortest decimal keeps what
reads back, and where it finds nothing all digits are written; so what it gives always reads back.

Results:
* `Decimal.digitsValue_digitText`: the digits of an integer are read as the integer.
* `Decimal.Scaled.magnitude_congr`: decimals of one value are read as one magnitude.
* `Decimal.magnitude_shortest`: the shortest decimal of a magnitude is read as the magnitude.
-/

namespace FactCube.Decimal

/-! ## Digits -/

theorem digitsValue_append (before after : List Char) :
    digitsValue (before ++ after) =
      digitsValue before * 10 ^ after.length + digitsValue after := by
  show Nat.ofDigitChars 10 (before ++ after) 0 = _
  rw [Nat.ofDigitChars_append, Nat.ofDigitChars_eq_ofDigitChars_zero, Nat.mul_comm]
  rfl

theorem digitsValue_zeros (n : Nat) : digitsValue (zeros n) = 0 := by
  show Nat.ofDigitChars 10 (List.replicate n '0') 0 = 0
  rw [Nat.ofDigitChars_replicate_zero, Nat.mul_zero]

/-- The digits of an integer are read as the integer. -/
theorem digitsValue_digitText (n : Nat) : digitsValue (digitText n) = n :=
  Nat.ofDigitChars_ten_toDigits

theorem length_digitText_le_iff {n k : Nat} (hk : 0 < k) :
    (digitText n).length ≤ k ↔ n < 10 ^ k :=
  Nat.length_toDigits_le_iff (by decide) hk

theorem isDigit_iff {c : Char} : isDigit c = true ↔ '0' ≤ c ∧ c ≤ '9' := by
  rw [isDigit, digitValue?]
  split <;> simp_all

theorem isDigit_of_mem_digitText {n : Nat} {c : Char} (h : c ∈ digitText n) :
    isDigit c = true := by
  have hdigit := Nat.isDigit_of_mem_toDigits (by decide) (by decide) h
  simp only [Char.isDigit, Bool.and_eq_true, decide_eq_true_eq] at hdigit
  exact isDigit_iff.2 hdigit

theorem isDigit_of_mem_zeros {n : Nat} {c : Char} (h : c ∈ zeros n) : isDigit c = true := by
  rw [List.eq_of_mem_replicate h]
  decide

/-- A positive integer has one digit more than its logarithm. -/
theorem digitCount_eq {n : Nat} (h : n ≠ 0) : digitCount n = Nat.log 10 n + 1 := by
  rw [digitCount, if_neg h]
  refine le_antisymm ?_ ?_
  · rw [Nat.length_toDigits_le_iff (by decide) (Nat.succ_pos _)]
    exact Nat.lt_pow_succ_log_self (by decide) n
  · have hlt : n < 10 ^ (Nat.toDigits 10 n).length :=
      (Nat.length_toDigits_le_iff (by decide) Nat.length_toDigits_pos).1 le_rfl
    exact Nat.log_lt_of_lt_pow h hlt

/-! ## The value of a decimal -/

namespace Scaled

/-- The rational a decimal stands for. -/
def value (d : Scaled) : ℚ := d.digits * 10 ^ d.exponent

theorem value_eq_zero_iff {d : Scaled} : d.value = 0 ↔ d.digits = 0 := by
  rw [value, mul_eq_zero_iff_right (zpow_ne_zero _ (by norm_num))]
  exact Nat.cast_eq_zero

theorem ratio_snd_ne_zero (d : Scaled) : d.ratio.2 ≠ 0 := by
  rw [ratio]
  split
  · exact one_ne_zero
  · exact pow_ne_zero _ (by decide)

theorem ratio_eq_value (d : Scaled) : (d.ratio.1 : ℚ) / d.ratio.2 = d.value := by
  obtain ⟨digits, exponent⟩ := d
  simp only [ratio, value]
  split
  · rename_i hexponent
    obtain ⟨n, rfl⟩ := Int.eq_ofNat_of_zero_le hexponent
    simp only [tenPow, Int.toNat_natCast, Nat.cast_mul, Nat.cast_one, div_one, zpow_natCast]
    norm_num
  · rename_i hexponent
    obtain ⟨n, hn⟩ := Int.eq_ofNat_of_zero_le (show 0 ≤ -exponent by omega)
    obtain rfl : exponent = -(n : Int) := by omega
    simp only [tenPow, neg_neg, Int.toNat_natCast, zpow_neg, zpow_natCast, div_eq_mul_inv]
    norm_num

/-- The place of the highest digit is settled by the value. -/
theorem size_eq {d : Scaled} (h : d.digits ≠ 0) :
    (digitCount d.digits : Int) + d.exponent = Int.log 10 d.value + 1 := by
  have hten : (0 : ℚ) < 10 ^ d.exponent := by positivity
  have hlower : (10 : ℚ) ^ Nat.log 10 d.digits ≤ d.digits := by
    exact_mod_cast Nat.pow_log_le_self 10 h
  have hupper : (d.digits : ℚ) < 10 ^ (Nat.log 10 d.digits + 1) := by
    exact_mod_cast Nat.lt_pow_succ_log_self (by decide) d.digits
  have hlog : Int.log 10 d.value = Nat.log 10 d.digits + d.exponent := by
    apply Binary64.log_eq_of_zpow (by decide)
    · push_cast
      rw [zpow_add₀ (by norm_num), zpow_natCast, value]
      gcongr
    · push_cast
      rw [add_right_comm, zpow_add₀ (by norm_num), value]
      gcongr
      exact_mod_cast hupper
  rw [hlog, digitCount_eq h]
  push_cast
  ring

/-- Decimals of one value are read as one magnitude. -/
theorem magnitude_congr {d e : Scaled} (h : d.value = e.value) : d.magnitude = e.magnitude := by
  have hzero : d.digits = 0 ↔ e.digits = 0 := by
    rw [← value_eq_zero_iff, h, value_eq_zero_iff]
  by_cases hd : d.digits = 0
  · rw [magnitude, magnitude, if_pos (.inl hd), if_pos (.inl (hzero.1 hd))]
  have he : e.digits ≠ 0 := hzero.not.1 hd
  have hnearest : Binary64.nearest d.ratio.1 d.ratio.2 = Binary64.nearest e.ratio.1 e.ratio.2 := by
    have hratio : (d.ratio.1 : ℚ) / d.ratio.2 = e.ratio.1 / e.ratio.2 := by
      rw [ratio_eq_value, ratio_eq_value, h]
    rw [div_eq_div_iff (by exact_mod_cast d.ratio_snd_ne_zero)
      (by exact_mod_cast e.ratio_snd_ne_zero)] at hratio
    exact Binary64.nearest_congr d.ratio_snd_ne_zero e.ratio_snd_ne_zero (by exact_mod_cast hratio)
  rw [magnitude, magnitude, size_eq hd, size_eq he, h, hnearest]
  simp only [hd, he, false_or]

/-- A decimal on the grid is read as its own magnitude: it lies within the bounds that are looked at
first. -/
theorem magnitude_of_value {d : Scaled} {b : Nat} (hpos : 0 < b) (hb : b < Binary64.infinite)
    (h : d.value = Binary64.magnitudeValue b) : d.magnitude = b := by
  obtain ⟨hlower, hupper⟩ := Binary64.magnitudeValue_bounds hpos hb
  rw [← h] at hlower hupper
  have hvalue : 0 < d.value := lt_of_lt_of_le (by positivity) hlower
  have hdigits : d.digits ≠ 0 := fun hzero => hvalue.ne' (value_eq_zero_iff.2 hzero)
  have hleast : -331 ≤ Int.log 10 d.value := by
    rw [← Int.zpow_le_iff_le_log (by decide) hvalue]
    refine le_trans ?_ hlower
    rw [zpow_neg, zpow_neg]
    refine inv_anti₀ (by positivity) ?_
    exact_mod_cast (by decide +kernel : 2 ^ 1074 ≤ 10 ^ 331)
  have hgreatest : Int.log 10 d.value < 310 := by
    rw [← Int.lt_zpow_iff_log_lt (by decide) hvalue]
    refine hupper.trans_le ?_
    exact_mod_cast (by decide +kernel : 2 ^ 1024 ≤ 10 ^ 310)
  rw [magnitude, size_eq hdigits, if_neg (by omega), if_neg (by omega)]
  exact Binary64.nearest_of_value hb d.ratio_snd_ne_zero (by rw [ratio_eq_value, h])

/-! ## Zeros at the end -/

theorem takeWhile_zero (s : List Char) :
    s.takeWhile (· == '0') = zeros (s.takeWhile (· == '0')).length :=
  List.eq_replicate_iff.2 ⟨rfl, fun c hc => by simpa using List.mem_takeWhile_imp hc⟩

/-- The digits without the zeros at the end are those of the quotient. -/
theorem div_mul_tenPow (n : Nat) :
    n / tenPow ((Nat.toDigits 10 n).reverse.takeWhile (· == '0')).length *
      10 ^ ((Nat.toDigits 10 n).reverse.takeWhile (· == '0')).length = n := by
  set count := ((Nat.toDigits 10 n).reverse.takeWhile (· == '0')).length with hcount
  have hsplit : digitText n =
      ((Nat.toDigits 10 n).reverse.dropWhile (· == '0')).reverse ++ zeros count := by
    rw [← List.reverse_inj, List.reverse_append, List.reverse_reverse, zeros, List.reverse_replicate,
      ← zeros, hcount, ← takeWhile_zero, List.takeWhile_append_dropWhile]
    rfl
  have hvalue := digitsValue_digitText n
  rw [hsplit, digitsValue_append, digitsValue_zeros, Nat.add_zero,
    show (zeros count).length = count from List.length_replicate] at hvalue
  exact Nat.div_mul_cancel ⟨_, by rw [← hvalue, Nat.mul_comm]; rfl⟩

/-- Cutting the zeros at the end does not change the value. -/
theorem value_stripped (d : Scaled) : d.stripped.value = d.value := by
  rw [stripped]
  split
  · rename_i hzero
    rw [value_eq_zero_iff.2 hzero]
    simp [value]
  · have hmul := div_mul_tenPow d.digits
    generalize ((Nat.toDigits 10 d.digits).reverse.takeWhile (· == '0')).length = count at *
    rw [value, value]
    conv_rhs => rw [← hmul]
    rw [add_comm d.exponent, zpow_add₀ (by norm_num), zpow_natCast, ← mul_assoc]
    push_cast
    rfl

end Scaled

/-! ## The search -/

/-- What is found on a grid reads back. -/
theorem magnitude_of_onGrid {tie : Tie} {magnitude num den : Nat} {step : Int} {d : Scaled}
    (h : onGrid tie magnitude num den step = some d) : d.magnitude = magnitude := by
  simp only [onGrid] at h
  split_ifs at h with _ _ hfirst hsecond hfirst hsecond <;> cases h <;> assumption

theorem value_inFull {num den k : Nat} (hden : den = 2 ^ k) :
    (inFull num den).value = (num : ℚ) / den := by
  have hten : (10 : ℚ) ^ k = 5 ^ k * 2 ^ k := by
    rw [← mul_pow]
    norm_num
  rw [inFull, Scaled.value, hden, Nat.log2_two_pow]
  show ((num * 5 ^ k : Nat) : ℚ) * 10 ^ (-(k : Int)) = _
  rw [zpow_neg, zpow_natCast, hten]
  push_cast
  field_simp

/-- The shortest decimal of a magnitude is read as the magnitude. -/
theorem magnitude_shortest (tie : Tie) {b : Nat} (h : b < Binary64.infinite) :
    (shortest tie b).magnitude = b := by
  rw [shortest]
  split
  · rename_i hzero
    rw [hzero]
    rfl
  · rename_i hne
    simp only
    rw [Scaled.magnitude_congr (Scaled.value_stripped _)]
    cases hfound : (List.range 17).findSome? fun (n : Nat) => onGrid tie b
        (Binary64.magnitudeRatio b).1 (Binary64.magnitudeRatio b).2
        (log10Ratio (Binary64.magnitudeRatio b).1 (Binary64.magnitudeRatio b).2 - n) with
    | some d =>
      obtain ⟨n, -, hd⟩ := List.exists_of_findSome?_eq_some hfound
      exact magnitude_of_onGrid hd
    | none =>
      obtain ⟨k, hk⟩ := Binary64.magnitudeRatio_snd b
      exact Scaled.magnitude_of_value (Nat.pos_of_ne_zero hne) h (value_inFull hk)

end FactCube.Decimal
