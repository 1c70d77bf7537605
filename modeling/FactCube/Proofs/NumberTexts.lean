import FactCube.Decimal.Layout
import FactCube.Decimal.Numeral
import FactCube.Proofs.Decimals

/-!
# Texts of numbers

An integer is written by its digits and a float by its shortest decimal in positional notation, each
behind its sign. Reading takes the sign off and goes over the digits up to the first character that
is none, so both come back from their texts.

Results:
* `Decimal.integer?_integerText`: an integer of 64 bits is read back from its digits.
* `Decimal.Scaled.isLayout_positions`: the digits on both sides of the point make up a decimal.
* `Decimal.number?_plain`: a finite number is read back from its display.
-/

namespace FactCube

/-! ## Texts of digits -/

namespace Text

theorem trimLeft_cons {c : Char} (h : isBlank c = false) (s : List Char) :
    trimLeft (c :: s) = c :: s :=
  List.dropWhile_cons_of_neg (by rw [h]; exact Bool.false_ne_true)

/-- Nothing is cut from a text without blanks. -/
theorem trim_of_forall {s : List Char} (h : ∀ c ∈ s, isBlank c = false) : trim s = s := by
  have hkeep : ∀ t : List Char, (∀ c ∈ t, isBlank c = false) → trimLeft t = t := by
    intro t ht
    cases t with
    | nil => rfl
    | cons c t => exact trimLeft_cons (ht c List.mem_cons_self) t
  have hreverse : trimLeft s.reverse = s.reverse :=
    hkeep _ fun c hc => h c (List.mem_reverse.1 hc)
  rw [trim, hkeep s h, trimRight, ← trimLeft, hreverse, List.reverse_reverse]

end Text

namespace Decimal

theorem isBlank_of_isDigit {c : Char} (h : isDigit c = true) : Text.isBlank c = false := by
  obtain ⟨hlower, hupper⟩ := isDigit_iff.1 h
  have hlower : 48 ≤ c.toNat := hlower
  have hupper : c.toNat ≤ 57 := hupper
  simp only [Text.isBlank, Bool.or_eq_false_iff, Bool.and_eq_false_iff, decide_eq_false_iff_not,
    beq_eq_false_iff_ne]
  omega

theorem ne_of_isDigit {c d : Char} (h : isDigit c = true) (hd : isDigit d = false) : c ≠ d := by
  rintro rfl
  rw [h] at hd
  cases hd

theorem natural?_of_digits {s : List Char} (hne : s ≠ []) (h : ∀ c ∈ s, isDigit c = true) :
    natural? s = some (digitsValue s) := by
  rw [natural?, if_neg]
  simpa [hne] using h

theorem spanSign_cons {c : Char} (h : isDigit c = true) (s : List Char) :
    spanSign (c :: s) = (false, c :: s) := by
  rw [spanSign]
  · rintro rest heq
    exact ne_of_isDigit h (by decide) (List.cons.inj heq).1
  · rintro rest heq
    exact ne_of_isDigit h (by decide) (List.cons.inj heq).1

/-- The sign is read apart from a text that starts with a digit. -/
theorem spanSign_signed (negative : Bool) {c : Char} (h : isDigit c = true) (s : List Char) :
    spanSign (signed negative (c :: s)).toList = (negative, c :: s) := by
  rw [signed, String.toList_ofList]
  cases negative with
  | true => rfl
  | false => exact spanSign_cons h s

theorem isBlank_of_mem_signed {negative : Bool} {s : List Char}
    (h : ∀ c ∈ s, Text.isBlank c = false) :
    ∀ c ∈ (signed negative s).toList, Text.isBlank c = false := by
  rw [signed, String.toList_ofList]
  cases negative with
  | true => exact List.forall_mem_cons.2 ⟨by decide, h⟩
  | false => exact h

theorem digitText_ne_nil (n : Nat) : digitText n ≠ [] := Nat.toDigits_ne_nil

theorem exists_digitText (n : Nat) : ∃ c rest, digitText n = c :: rest ∧ isDigit c = true := by
  obtain ⟨c, rest, hcons⟩ := List.exists_cons_of_ne_nil (digitText_ne_nil n)
  exact ⟨c, rest, hcons, isDigit_of_mem_digitText (n := n) (hcons ▸ List.mem_cons_self)⟩

/-- An integer of 64 bits is read back from its text. -/
theorem integer?_integerText {n : Int} (hlower : leastInteger ≤ n) (hupper : n ≤ greatestInteger) :
    integer? (integerText n).toList = some n := by
  obtain ⟨c, rest, hcons, hdigit⟩ := exists_digitText n.natAbs
  have hnatural : natural? (c :: rest) = some n.natAbs := by
    rw [← hcons, natural?_of_digits (digitText_ne_nil _) fun _ => isDigit_of_mem_digitText,
      digitsValue_digitText]
  have hvalue : (if decide (n < 0) = true then -(n.natAbs : Int) else n.natAbs) = n := by
    split
    · rename_i hn
      rw [decide_eq_true_eq] at hn
      omega
    · rename_i hn
      rw [decide_eq_true_eq] at hn
      omega
  rw [integerText, hcons, integer?, spanSign_signed _ hdigit]
  simp only [hnatural, hvalue]
  rw [if_pos ⟨hlower, hupper⟩]

/-! ## Positional notation -/

theorem spanDigits_append {digits rest : List Char} (h : ∀ c ∈ digits, isDigit c = true)
    (hrest : ∀ c ∈ rest.head?, isDigit c = false) :
    spanDigits (digits ++ rest) = (digits, rest) := by
  have hstop : rest.takeWhile isDigit = [] ∧ rest.dropWhile isDigit = rest := by
    cases rest with
    | nil => exact ⟨rfl, rfl⟩
    | cons c rest => simp [hrest c rfl]
  rw [spanDigits, List.takeWhile_append_of_pos h, List.dropWhile_append_of_pos h, hstop.1, hstop.2,
    List.append_nil]

namespace Scaled

/-- The digits before and after the point, with a zero before it if there are none. -/
def whole (d : Scaled) : List Char :=
  if d.positions.1.isEmpty then ['0'] else d.positions.1

/-- The decimal in positional notation. -/
def positional (d : Scaled) : List Char :=
  if d.positions.2.isEmpty then d.whole else d.whole ++ '.' :: d.positions.2

/-- The digits on both sides of the point make up the value of a decimal. -/
structure IsLayout (d : Scaled) (whole fraction : List Char) : Prop where
  ne_nil : whole ≠ []
  whole_digits : ∀ c ∈ whole, isDigit c = true
  fraction_digits : ∀ c ∈ fraction, isDigit c = true
  value_eq : (digitsValue (whole ++ fraction) : ℚ) * 10 ^ (-(fraction.length : Int)) = d.value

theorem isLayout_positions (d : Scaled) : d.IsLayout d.whole d.positions.2 := by
  have hdigits : ∀ c ∈ digitText d.digits, isDigit c = true := fun _ => isDigit_of_mem_digitText
  have hlength : 0 < (digitText d.digits).length := Nat.length_toDigits_pos
  rw [whole, positions]
  split
  · -- zeros follow the digits
    rename_i hexponent
    obtain ⟨n, hn⟩ := Int.eq_ofNat_of_zero_le hexponent
    have hne : digitText d.digits ++ zeros d.exponent.toNat ≠ [] := by
      simp [digitText_ne_nil]
    rw [if_neg (by simpa using hne)]
    refine ⟨hne, ?_, List.forall_mem_nil _, ?_⟩
    · exact List.forall_mem_append.2 ⟨hdigits, fun _ => isDigit_of_mem_zeros⟩
    · rw [List.append_nil, digitsValue_append, digitsValue_digitText, digitsValue_zeros, value, hn]
      simp [zeros]
  · rename_i hexponent
    simp only
    split
    · -- the point stands between the digits
      rename_i hpoint
      obtain ⟨n, hn⟩ := Int.eq_ofNat_of_zero_le hpoint.le
      have hlt : n < (digitText d.digits).length := by omega
      have hne : (digitText d.digits).take n ≠ [] := by
        rw [ne_eq, List.take_eq_nil_iff, not_or]
        exact ⟨by omega, List.ne_nil_of_length_pos hlength⟩
      rw [hn, Int.toNat_natCast, if_neg (by simpa using hne)]
      refine ⟨hne, fun c hc => hdigits c (List.mem_of_mem_take hc),
        fun c hc => hdigits c (List.mem_of_mem_drop hc), ?_⟩
      rw [List.take_append_drop, digitsValue_digitText, List.length_drop, value,
        show -(((digitText d.digits).length - n : Nat) : Int) = d.exponent by omega]
    · -- zeros stand between the point and the digits
      rename_i hpoint
      have hzeros : 0 ≤ -((digitText d.digits).length + d.exponent : Int) := by omega
      obtain ⟨n, hn⟩ := Int.eq_ofNat_of_zero_le hzeros
      rw [hn, Int.toNat_natCast]
      refine ⟨List.cons_ne_nil _ _, ?_, ?_, ?_⟩
      · exact List.forall_mem_singleton.2 (by decide)
      · exact List.forall_mem_append.2 ⟨fun _ => isDigit_of_mem_zeros, hdigits⟩
      · rw [if_pos List.isEmpty_nil, ← List.append_assoc, digitsValue_append, digitsValue_digitText,
          show ['0'] ++ zeros n = zeros (n + 1) from rfl, digitsValue_zeros, Nat.zero_mul,
          Nat.zero_add, List.length_append, zeros, List.length_replicate, value,
          show -((n + (digitText d.digits).length : Nat) : Int) = d.exponent by omega]

/-- A decimal in positional notation is read as a decimal of the same value. -/
theorem exists_scaled?_positional (d : Scaled) :
    ∃ e, scaled? d.positional = some e ∧ e.value = d.value := by
  obtain ⟨hne, hwhole, hfraction, hvalue⟩ := d.isLayout_positions
  rw [positional]
  generalize d.positions.2 = fraction at *
  generalize d.whole = whole at *
  cases fraction with
  | nil =>
    have hspan : spanDigits (whole ++ []) = (whole, []) := spanDigits_append hwhole (by simp)
    rw [List.append_nil] at hspan
    refine ⟨⟨digitsValue whole, 0⟩, ?_, by simpa [value] using hvalue⟩
    simp [scaled?, hspan, hne, exponent?]
  | cons c fraction =>
    have hspan : spanDigits (whole ++ '.' :: c :: fraction) = (whole, '.' :: c :: fraction) :=
      spanDigits_append hwhole
        (by simp only [List.head?_cons, Option.mem_some_iff]; rintro _ rfl; decide)
    have hspan' : spanDigits (c :: fraction ++ []) = (c :: fraction, []) :=
      spanDigits_append hfraction (by simp)
    rw [List.append_nil] at hspan'
    refine ⟨⟨digitsValue (whole ++ c :: fraction), 0 - (c :: fraction).length⟩, ?_, ?_⟩
    · simp [scaled?, hspan, hspan', exponent?]
    · rw [zero_sub]
      exact hvalue

/-- Positional notation starts with a digit and has no blanks. -/
theorem exists_positional (d : Scaled) :
    (∃ c rest, d.positional = c :: rest ∧ isDigit c = true) ∧
      ∀ c ∈ d.positional, Text.isBlank c = false := by
  obtain ⟨hne, hwhole, hfraction, -⟩ := d.isLayout_positions
  obtain ⟨c, rest, hcons⟩ := List.exists_cons_of_ne_nil hne
  have hdigit := hwhole c (hcons ▸ List.mem_cons_self)
  rw [positional]
  split
  · exact ⟨⟨c, rest, hcons, hdigit⟩, fun c hc => isBlank_of_isDigit (hwhole c hc)⟩
  · refine ⟨⟨c, rest ++ '.' :: d.positions.2, by rw [hcons]; rfl, hdigit⟩, ?_⟩
    exact List.forall_mem_append.2 ⟨fun c hc => isBlank_of_isDigit (hwhole c hc),
      List.forall_mem_cons.2 ⟨by decide, fun c hc => isBlank_of_isDigit (hfraction c hc)⟩⟩

end Scaled

/-! ## Numbers -/

theorem plain_of_isFinite {x : Float} (h : Binary64.isFinite x = true) :
    plain x =
      signed (Binary64.negative x) (shortest .up (Binary64.magnitude x)).positional := by
  rw [plain, if_neg (by rw [Binary64.isNotNumber_of_isFinite h]; exact Bool.false_ne_true)]
  simp only [h, Bool.not_true, Bool.false_eq_true, if_false]
  rfl

/-- A finite number is read back from its display. -/
theorem number?_plain {x : Float} (h : Binary64.isFinite x = true) :
    number? (plain x).toList = some x := by
  have hfinite : Binary64.magnitude x < Binary64.infinite := of_decide_eq_true h
  obtain ⟨⟨c, rest, hcons, hdigit⟩, -⟩ :=
    (shortest .up (Binary64.magnitude x)).exists_positional
  obtain ⟨e, hscaled, hvalue⟩ :=
    (shortest .up (Binary64.magnitude x)).exists_scaled?_positional
  have hmagnitude : e.magnitude = Binary64.magnitude x := by
    rw [Scaled.magnitude_congr hvalue, magnitude_shortest .up hfinite]
  rw [hcons] at hscaled
  rw [plain_of_isFinite h, hcons, number?, spanSign_signed _ hdigit]
  simp only [hscaled, hmagnitude, Option.some.injEq]
  exact Binary64.eq_of_parts_eq (Binary64.negative_make hfinite.le)
    (Binary64.magnitude_make hfinite.le)

theorem isBlank_of_mem_plain {x : Float} (h : Binary64.isFinite x = true) :
    ∀ c ∈ (plain x).toList, Text.isBlank c = false := by
  rw [plain_of_isFinite h]
  exact isBlank_of_mem_signed (shortest .up (Binary64.magnitude x)).exists_positional.2

theorem isBlank_of_mem_integerText (n : Int) :
    ∀ c ∈ (integerText n).toList, Text.isBlank c = false :=
  isBlank_of_mem_signed fun _ hc => isBlank_of_isDigit (isDigit_of_mem_digitText hc)

theorem digitsValue_lt {s : List Char} (h : ∀ c ∈ s, isDigit c = true) :
    digitsValue s < 10 ^ s.length := by
  induction s with
  | nil => exact Nat.one_pos
  | cons c s ih =>
    rw [List.forall_mem_cons] at h
    have hupper : c.toNat ≤ 57 := (isDigit_iff.1 h.1).2
    have hfirst : digitsValue [c] ≤ 9 := by
      show 10 * 0 + (c.toNat - 48) ≤ 9
      omega
    have hmul := Nat.mul_le_mul_right (10 ^ s.length) hfirst
    have hrest := ih h.2
    rw [← List.singleton_append, digitsValue_append, List.length_append, List.length_singleton,
      pow_add, pow_one]
    omega

/-- The digits of an integer do not start with a zero, unless it is their only one. -/
theorem digitText_head (n : Nat) (c : Char) (rest : List Char) :
    digitText n ≠ '0' :: c :: rest := by
  intro h
  have hdigits : ∀ d ∈ c :: rest, isDigit d = true := fun d hd =>
    isDigit_of_mem_digitText (n := n) (h ▸ List.mem_cons_of_mem _ hd)
  have hvalue : digitsValue (c :: rest) = n := by
    rw [← digitsValue_digitText n, h]
    rfl
  have hlt := digitsValue_lt hdigits
  rw [hvalue] at hlt
  have hlength := (length_digitText_le_iff (by rw [List.length_cons]; omega)).2 hlt
  rw [h] at hlength
  simp at hlength

/-- The digits of a positive integer do not start with a zero. -/
theorem exists_digitText_of_ne_zero {n : Nat} (h : n ≠ 0) :
    ∃ c rest, digitText n = c :: rest ∧ c ≠ '0' := by
  obtain ⟨c, rest, hcons⟩ := List.exists_cons_of_ne_nil (digitText_ne_nil n)
  refine ⟨c, rest, hcons, ?_⟩
  rintro rfl
  cases rest with
  | nil =>
    have hvalue := digitsValue_digitText n
    rw [hcons] at hvalue
    exact h hvalue.symm
  | cons d rest => exact digitText_head n d rest hcons

/-- The digits before the point of a positive decimal do not start with a zero, unless it is their
only one. -/
theorem whole_head {d : Scaled} (h : d.digits ≠ 0) (c : Char) (rest : List Char) :
    d.whole ≠ '0' :: c :: rest := by
  obtain ⟨first, others, hcons, hfirst⟩ := exists_digitText_of_ne_zero h
  intro heq
  rw [Scaled.whole, Scaled.positions, hcons] at heq
  simp only at heq
  split at heq
  · exact hfirst (List.cons.inj heq).1
  · split at heq
    · rename_i hpoint
      obtain ⟨n, hn⟩ := Int.eq_succ_of_zero_lt hpoint
      rw [hn] at heq
      exact hfirst (List.cons.inj heq).1
    · cases heq

end Decimal

end FactCube
