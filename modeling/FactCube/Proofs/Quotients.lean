import FactCube.Proofs.Patterns

/-!
# Quotients of numbers

A number is divided by shifting the significands until the quotient has bits enough, and rounding
what comes out. The exponent of the result is bounded by the exponents of the two numbers, so a
finite number divided by one that is at least two stays finite. The sign plays no part in this.

Results:
* `Binary64.isFinite_neg`: a finite number is finite with the other sign.
* `Binary64.isFinite_div`: a finite number divided by a number of two or more is finite.
-/

namespace FactCube.Binary64

open Float.Model (Format UnpackedFloat totalExponent)
open Float.Model.UnpackedFloat

/-! ## Finite numbers and their parts -/

/-- A zero, or a significand with an exponent that the format has. -/
def IsInRange : UnpackedFloat → Prop
  | .zero _ => True
  | .finite _ _ e _ => e ≤ 971
  | _ => False

theorem toNat_unpackExponent_toBits (x : Float) :
    (@unpackExponent Format.binary64 x.toBits.toBitVec).toNat = magnitude x / binade := by
  have hexponent : (@unpackExponent Format.binary64 x.toBits.toBitVec).toNat =
      x.toBits.toNat / 2 ^ 52 % 2 ^ 11 := toNat_unpackExponent _
  rw [hexponent]
  simp only [magnitude, binade, signBit]
  omega

theorem isFinite_iff (x : Float) :
    isFinite x = true ↔ @unpackExponent Format.binary64 x.toBits.toBitVec ≠ -1#11 := by
  rw [isFinite, decide_eq_true_iff, ne_eq, ← BitVec.toNat_inj, toNat_unpackExponent_toBits]
  show _ ↔ ¬_ = 2047
  simp only [magnitude, infinite, binade, signBit]
  omega

/-- A pattern whose exponent is not the greatest comes apart into a zero or a significand of at most
53 bits and an exponent; above the lowest binade the significand has just as many. -/
theorem unpack_cases {b : BitVec Format.binary64.numBits} (h : (unpackExponent b).toNat < 2047) :
    (∃ s, UnpackedFloat.unpack Format.binary64 b = .zero s ∧ (unpackExponent b).toNat = 0) ∨
      ∃ s m e hm, UnpackedFloat.unpack Format.binary64 b = .finite s m e hm ∧ m.log2 ≤ 52 ∧
        e ≤ 971 ∧ ((unpackExponent b).toNat ≠ 0 →
          m.log2 = 52 ∧ e = (unpackExponent b).toNat - 1075) := by
  have hbias : (Format.binary64.exponentBias : Int) +
      Format.binary64.mantissaBitsWithoutImplicit = 1075 := by decide
  have hones : unpackExponent b ≠ -1#11 := by
    intro heq
    rw [heq] at h
    exact absurd h (by decide)
  rw [UnpackedFloat.unpack]
  simp only [hbias]
  rw [if_neg hones]
  by_cases hzero : unpackExponent b = 0#11
  · have hnat : (unpackExponent b).toNat = 0 := by
      rw [hzero]
      rfl
    rw [if_pos hzero]
    split
    · exact .inl ⟨_, rfl, hnat⟩
    · rename_i hmantissa
      have hpos : 0 < (unpackMantissa b).toNat :=
        Nat.pos_of_ne_zero fun heq => hmantissa (BitVec.toNat_inj.1 heq)
      exact .inr ⟨_, _, _, hpos, rfl, (log2_of_lt (unpackMantissa b).isLt).le, by omega,
        fun hnormal => absurd hnat hnormal⟩
  · have hpos : 0 < (1#1 ++ unpackMantissa b).toNat := by
      rw [toNat_one_append]
      omega
    rw [if_neg hzero]
    exact .inr ⟨_, _, _, hpos, rfl, (log2_one_append _).le, by omega,
      fun _ => ⟨log2_one_append _, rfl⟩⟩

theorem unpack_of_isFinite {x : Float} (h : isFinite x = true) :
    (∃ s, x.toModel.unpack = .zero s ∧ magnitude x < binade) ∨
      ∃ s m e hm, x.toModel.unpack = .finite s m e hm ∧ m.log2 ≤ 52 ∧ e ≤ 971 ∧
        (binade ≤ magnitude x → m.log2 = 52 ∧ e = (magnitude x / binade : Nat) - 1075) := by
  have hexponent := toNat_unpackExponent_toBits x
  have hbinade : 0 < binade := by decide
  have hlt : magnitude x / binade < 2047 :=
    (Nat.div_lt_iff_lt_mul hbinade).2 (of_decide_eq_true h)
  rw [← hexponent] at hlt
  rcases unpack_cases hlt with ⟨s, hparts, hzero⟩ | ⟨s, m, e, hm, hparts, hlog, he, hnormal⟩
  · rw [hexponent, Nat.div_eq_zero_iff_lt hbinade] at hzero
    exact .inl ⟨s, hparts, hzero⟩
  · rw [hexponent] at hnormal
    exact .inr ⟨s, m, e, hm, hparts, hlog, he,
      fun hle => hnormal (Nat.div_pos hle hbinade).ne'⟩

theorem unpackExponent_pack {u : UnpackedFloat} (h : IsInRange u) :
    unpackExponent (UnpackedFloat.pack Format.binary64 u) ≠ -1#11 := by
  cases u with
  | infinity _ => exact h.elim
  | notANumber => exact h.elim
  | zero s =>
    rw [UnpackedFloat.pack, packedZero, unpackExponent_packComponents]
    decide
  | finite s m e hm =>
    have he : e ≤ 971 := h
    have hbiased : (e + Format.binary64.exponentBias +
        Format.binary64.mantissaBitsWithoutImplicit).toNat < 2047 := by
      show (e + 1023 + 52).toNat < 2047
      omega
    rw [UnpackedFloat.pack]
    simp only
    generalize (e + Format.binary64.exponentBias +
      Format.binary64.mantissaBitsWithoutImplicit).toNat = biased at hbiased
    rw [if_neg (by show ¬2 ^ 11 ≤ biased + 1; omega)]
    split
    · rw [unpackExponent_packComponents, ne_eq, ← BitVec.toNat_inj, BitVec.toNat_ofNat]
      show ¬biased % 2048 = 2047
      omega
    · rw [unpackExponent_packComponents]
      decide

/-- Parts within range make a finite number. -/
theorem isFinite_pack {u : UnpackedFloat} (h : IsInRange u) :
    isFinite (Float.ofModel (Float.Model.pack u)) = true :=
  (isFinite_iff _).2 (unpackExponent_pack h)

/-- A finite number is finite with the other sign. -/
theorem isFinite_neg {x : Float} (h : isFinite x = true) : isFinite (-x) = true := by
  have hopposite : isFinite (-x) =
      isFinite (Float.ofModel (Float.Model.pack x.toModel.unpack.neg)) := rfl
  rw [hopposite]
  refine isFinite_pack ?_
  rcases unpack_of_isFinite h with ⟨s, hparts, -⟩ | ⟨s, m, e, hm, hparts, -, he, -⟩
  · rw [hparts]
    trivial
  · rw [hparts]
    exact he

/-! ## Rounding -/

/-- Every shift halves the significand. -/
theorem mantissa_shiftRight (em : ExtendedMantissa) (k : Nat) :
    (em >>> k).mantissa = em.mantissa / 2 ^ k := by
  show (k.repeat ExtendedMantissa.shiftRightOne em).mantissa = _
  induction k with
  | zero => exact (Nat.div_one _).symm
  | succ k ih =>
    show (k.repeat ExtendedMantissa.shiftRightOne em).mantissa / 2 = _
    rw [ih, Nat.div_div_eq_div_mul, pow_succ]

/-- Rounding adds at most one. -/
theorem roundedMantissa_le (em : ExtendedMantissa) : em.roundedMantissa ≤ em.mantissa + 1 := by
  rw [ExtendedMantissa.roundedMantissa]
  rcases em.accuracy with _ | (_ | _ | _) <;>
    simp only [Accuracy.roundToNearestEven] <;> omega

theorem log2_div_two_pow (m k : Nat) : (m / 2 ^ k).log2 = m.log2 - k := by
  rw [Nat.log2_eq_log_two, Nat.log2_eq_log_two, Nat.log_div_base_pow]

theorem log2_succ_le (m : Nat) : (m + 1).log2 ≤ m.log2 + 1 := by
  by_cases hm : m = 0
  · rw [hm]
    decide
  have hlt : (m + 1).log2 < m.log2 + 2 := by
    rw [Nat.log2_lt (Nat.succ_ne_zero m), pow_succ]
    have hself := Nat.lt_log2_self (n := m)
    omega
  omega

theorem log2_mono {m n : Nat} (h : m ≤ n) : m.log2 ≤ n.log2 := by
  rw [Nat.log2_eq_log_two, Nat.log2_eq_log_two]
  exact Nat.log_mono_right h

/-- How far a significand is shifted to meet the format. -/
def shiftOf (m : Nat) (e : Int) : Nat := (max ((m.log2 : Int) + e - 52) (-1074) - e).toNat

theorem shiftToTargetExponent_eq (m : Nat) (e : Int) (accuracy : Accuracy) :
    (shiftToTargetExponent Format.binary64 m e accuracy).1.mantissa = m / 2 ^ shiftOf m e ∧
      (shiftToTargetExponent Format.binary64 m e accuracy).2 = e + shiftOf m e := by
  have htarget : Format.binary64.targetExponent (totalExponent m e) =
      max ((m.log2 : Int) + e - 52) (-1074) := by
    show max ((m.log2 : Int) + 1 + e - 53) (3 - 1024 - 53) = _
    omega
  have hmantissa : (ExtendedMantissa.ofMantissaAndAccuracy m accuracy).mantissa = m := by
    rcases accuracy with _ | (_ | _ | _) <;> rfl
  simp only [shiftToTargetExponent, shiftToExponent, htarget, mantissa_shiftRight, hmantissa]
  exact ⟨rfl, rfl⟩

/-- The rounded number has an exponent of the format if the one before has: the significand grows by
one bit at most. -/
theorem isInRange_roundWithAccuracy {m : Nat} {e : Int} (he : e ≤ 971)
    (hlog : (m.log2 : Int) + e ≤ 1022) (s : Sign) (accuracy : Accuracy) :
    IsInRange (roundWithAccuracy Format.binary64 s m e accuracy) := by
  obtain ⟨hmantissa, hexponent⟩ := shiftToTargetExponent_eq m e accuracy
  rw [roundWithAccuracy]
  generalize shiftToTargetExponent Format.binary64 m e accuracy = first at *
  obtain ⟨em, e'⟩ := first
  simp only at hmantissa hexponent ⊢
  obtain ⟨-, hfinal⟩ := shiftToTargetExponent_eq em.roundedMantissa e' .exact
  have hrounded : (em.roundedMantissa).log2 ≤ m.log2 - shiftOf m e + 1 := by
    refine (log2_mono (roundedMantissa_le em)).trans ((log2_succ_le _).trans ?_)
    rw [hmantissa, log2_div_two_pow]
  split
  · trivial
  · show (shiftToTargetExponent Format.binary64 em.roundedMantissa e' .exact).2 ≤ 971
    rw [hfinal, hexponent]
    simp only [shiftOf] at *
    omega

/-! ## Division -/

theorem log2_shiftLeft_div_le {m n : Nat} (hm : m ≠ 0) (hn : n ≠ 0) (k : Nat) :
    ((m <<< k) / n).log2 ≤ m.log2 + k - n.log2 := by
  have hle : (m <<< k) / n ≤ (m <<< k) / 2 ^ n.log2 :=
    Nat.div_le_div_left (Nat.log2_self_le hn) (Nat.two_pow_pos _)
  refine (log2_mono hle).trans ?_
  have hshift : (m <<< k).log2 < m.log2 + 1 + k := by
    rw [Nat.shiftLeft_eq, Nat.log2_lt (Nat.mul_ne_zero hm (Nat.two_pow_pos k).ne'), pow_add]
    exact Nat.mul_lt_mul_of_pos_right Nat.lt_log2_self (Nat.two_pow_pos k)
  rw [log2_div_two_pow]
  omega

/-- A quotient has room in the format where the dividend has and the divisor is at least two. -/
theorem isInRange_divCore {m₁ m₂ : Nat} {e₁ e₂ : Int} (hm₁ : m₁ ≠ 0) (hlog₁ : m₁.log2 ≤ 52)
    (he₁ : e₁ ≤ 971) (hlog₂ : m₂.log2 = 52) (he₂ : -51 ≤ e₂) (s : Sign) :
    IsInRange (roundWithAccuracy Format.binary64 s (divCore Format.binary64 m₁ e₁ m₂ e₂).1
      (divCore Format.binary64 m₁ e₁ m₂ e₂).2.1 (divCore Format.binary64 m₁ e₁ m₂ e₂).2.2) := by
  have htarget : Format.binary64.targetExponent (totalExponent m₁ e₁ - totalExponent m₂ e₂) =
      max ((m₁.log2 : Int) + 1 + e₁ - (m₂.log2 + 1 + e₂) - 53) (-1074) := rfl
  have hm₂ : m₂ ≠ 0 := by
    rintro rfl
    cases hlog₂
  refine isInRange_roundWithAccuracy ?_ ?_ s _
  · simp only [divCore, htarget]
    omega
  · simp only [divCore, htarget]
    have hle := log2_shiftLeft_div_le hm₁ hm₂ (e₁ - e₂ - min (e₁ - e₂)
      (max ((m₁.log2 : Int) + 1 + e₁ - (m₂.log2 + 1 + e₂) - 53) (-1074))).toNat
    omega

/-- A finite number divided by a number of two or more is finite. -/
theorem isFinite_div {x y : Float} (hx : isFinite x = true) (hy : isFinite y = true)
    (htwo : 1024 * binade ≤ magnitude y) : isFinite (x / y) = true := by
  have hquotient : isFinite (x / y) = isFinite (Float.ofModel (Float.Model.pack
    (UnpackedFloat.div Format.binary64 x.toModel.unpack y.toModel.unpack))) := rfl
  rw [hquotient]
  refine isFinite_pack ?_
  simp only [binade] at htwo
  rcases unpack_of_isFinite hy with ⟨s₂, -, hsmall⟩ | ⟨s₂, m₂, e₂, hm₂, hparts₂, -, -, hnormal⟩
  · simp only [binade] at hsmall
    omega
  simp only [binade] at hnormal
  obtain ⟨hlog₂, he₂⟩ := hnormal (by omega)
  rw [hparts₂]
  rcases unpack_of_isFinite hx with ⟨s₁, hparts₁, -⟩ | ⟨s₁, m₁, e₁, hm₁, hparts₁, hlog₁, he₁, -⟩
  · rw [hparts₁]
    trivial
  · rw [hparts₁]
    exact isInRange_divCore hm₁.ne' hlog₁ he₁ hlog₂ (by omega) _

end FactCube.Binary64
