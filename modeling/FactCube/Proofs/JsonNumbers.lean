import FactCube.Json.Basic
import FactCube.Json.Reader
import FactCube.Proofs.NumberTexts
import FactCube.Proofs.Outcome
import FactCube.Proofs.Quotients

/-!
# JSON numbers

A number is written as an integer or, for a finite float, in one of the layouts of the exact
decimal; both are read digit by digit up to the first character that continues no number.

What is read means an integer of 64 bits where it is written as one, else a float. Its digits are
taken into a significand of at most 64 bits, which is rounded to a float and then scaled by a power
of ten; the product is checked, and a quotient is finite because the power is at least two. So
whatever number is read is finite.

Results:
* `Json.readNumber_text`: a number is read digit by digit up to what follows it.
* `Json.integerText_eq`, `Json.exact_eq`: how integers and floats are written.
* `Json.value_integerNumeral`: an integer of 64 bits is read back from its digits.
* `Json.isPlain_of_value`: whatever number is read is an integer of 64 bits or a finite float.
-/

namespace FactCube.Json

open Decimal (digitText digitsValue isDigit)
open Utf8 (Symbol)

/-! ## Texts of numbers -/

/-- The text of an exponent, with its sign. -/
def exponentText : Option (Bool × List Char) → List Char
  | none => []
  | some (below, digits) => 'e' :: (if below then '-' else '+') :: digits

/-- The text of a number behind its sign. -/
def Numeral.text (n : Numeral) : List Char :=
  n.whole ++ (if n.fraction.isEmpty then [] else '.' :: n.fraction) ++ exponentText n.exponent

/-- A number that is written as JSON asks: digits on both sides of a point, if there is one, no zero
in front of other digits, and digits in the exponent. -/
structure Numeral.IsWritten (n : Numeral) : Prop where
  whole_ne_nil : n.whole ≠ []
  whole_digits : ∀ c ∈ n.whole, isDigit c = true
  whole_head : ∀ c rest, n.whole ≠ '0' :: c :: rest
  fraction_digits : ∀ c ∈ n.fraction, isDigit c = true
  exponent_digits : ∀ e ∈ n.exponent, e.2 ≠ [] ∧ ∀ c ∈ e.2, isDigit c = true

/-- Nothing in front of a text continues a number. -/
def EndsNumber (rest : List Symbol) : Prop :=
  ∀ c, rest.head? = some (some c) → isDigit c = false ∧ c ≠ '.' ∧ c ≠ 'e' ∧ c ≠ 'E'

theorem endsNumber_nil : EndsNumber [] := fun _ h => by cases h

theorem endsNumber_cons {c : Char} {rest : List Symbol}
    (h : isDigit c = false ∧ c ≠ '.' ∧ c ≠ 'e' ∧ c ≠ 'E') : EndsNumber (some c :: rest) := by
  intro d hd
  cases hd
  exact h

theorem spanDigits_append {digits : List Char} {rest : List Symbol}
    (h : ∀ c ∈ digits, isDigit c = true)
    (hrest : ∀ c, rest.head? = some (some c) → isDigit c = false) :
    spanDigits (digits.map some ++ rest) = (digits, rest) := by
  induction digits with
  | nil =>
    rw [List.map_nil, List.nil_append, spanDigits.eq_def]
    split
    · rename_i c rest
      rw [hrest c rfl]
      rfl
    · rfl
  | cons c digits ih =>
    rw [List.map_cons, List.cons_append, spanDigits, ih fun d hd => h d (List.mem_cons_of_mem c hd),
      h c List.mem_cons_self]
    rfl

theorem readExponent_text {negative : Bool} {whole fraction : List Char}
    {exponent : Option (Bool × List Char)} {rest : List Symbol}
    (h : ∀ e ∈ exponent, e.2 ≠ [] ∧ ∀ c ∈ e.2, isDigit c = true) (hrest : EndsNumber rest) :
    readExponent negative whole fraction ((exponentText exponent).map some ++ rest) =
      (.number ⟨negative, whole, fraction, exponent⟩, some rest) := by
  cases exponent with
  | none =>
    cases rest with
    | nil => rfl
    | cons x rest =>
      have hmark : (x == some 'e' || x == some 'E') = false := by
        rw [Bool.or_eq_false_iff, beq_eq_false_iff_ne, beq_eq_false_iff_ne]
        constructor <;> rintro rfl
        · exact (hrest 'e' rfl).2.2.1 rfl
        · exact (hrest 'E' rfl).2.2.2 rfl
      simp only [exponentText, List.map_nil, List.nil_append, readExponent, hmark,
        Bool.false_eq_true, if_false]
  | some e =>
    obtain ⟨below, digits⟩ := e
    obtain ⟨hne, hdigits⟩ := h _ rfl
    have hspan : spanDigits (digits.map some ++ rest) = (digits, rest) :=
      spanDigits_append hdigits fun c hc => (hrest c hc).1
    have hempty : digits.isEmpty = false := by simpa using hne
    have hsign : spanSign (some (if below then '-' else '+') :: (digits.map some ++ rest)) =
        (below, digits.map some ++ rest) := by
      cases below <;> rfl
    simp only [exponentText, List.map_cons, List.cons_append, readExponent, hsign, hspan, hempty]
    rfl

/-- A number is read digit by digit up to what follows it. -/
theorem readNumber_text {n : Numeral} (h : n.IsWritten) {rest : List Symbol}
    (hrest : EndsNumber rest) :
    readNumber n.negative (n.text.map some ++ rest) = (.number n, some rest) := by
  obtain ⟨negative, whole, fraction, exponent⟩ := n
  obtain ⟨hne, hwhole, hhead, hfraction, hexponent⟩ := h
  simp only at hne hwhole hhead hfraction hexponent
  have hmark : ∀ c, ((exponentText exponent).map some ++ rest).head? = some (some c) →
      isDigit c = false ∧ c ≠ '.' := by
    intro c hc
    cases exponent with
    | none => exact ⟨(hrest c hc).1, (hrest c hc).2.1⟩
    | some e =>
      cases hc
      exact ⟨by decide, by decide⟩
  have hstep : readExponent negative whole fraction ((exponentText exponent).map some ++ rest) =
      (.number ⟨negative, whole, fraction, exponent⟩, some rest) :=
    readExponent_text hexponent hrest
  have hspan : ∀ tail : List Symbol, (∀ c, tail.head? = some (some c) → isDigit c = false) →
      spanDigits (whole.map some ++ tail) = (whole, tail) := fun tail => spanDigits_append hwhole
  cases fraction with
  | nil =>
    simp only [Numeral.text, List.isEmpty_nil, if_true, List.append_nil, List.map_append,
      List.append_assoc, readNumber, hspan _ fun c hc => (hmark c hc).1]
    split
    · rename_i heq
      exact absurd rfl (hmark '.' (by rw [heq]; rfl)).2
    · exact hstep
  | cons d fraction =>
    have hspan' : spanDigits ((d :: fraction).map some ++
        ((exponentText exponent).map some ++ rest)) = (d :: fraction, _) :=
      spanDigits_append hfraction fun c hc => (hmark c hc).1
    have hpoint : ∀ c, (some '.' :: ((d :: fraction).map some ++
        ((exponentText exponent).map some ++ rest))).head? = some (some c) → isDigit c = false := by
      intro c hc
      cases hc
      decide
    simp only [Numeral.text, List.isEmpty_cons, Bool.false_eq_true, if_false, List.map_append,
      List.map_cons, List.append_assoc, List.cons_append] at hspan' hpoint ⊢
    simp only [readNumber, hspan _ hpoint]
    simp only [hspan', List.isEmpty_cons, Bool.false_eq_true, if_false]
    exact hstep

/-! ## Written numbers -/

/-- An integer as it is read. -/
def integerNumeral (n : Int) : Numeral := ⟨n < 0, digitText n.natAbs, [], none⟩

/-- A finite float as it is read: at least one digit on both sides of a point, or digits and an
exponent where the point lies far from them. -/
def exactNumeral (x : Float) : Numeral :=
  let d := Decimal.shortest .even (Binary64.magnitude x)
  let digits := digitText d.digits
  let point := (digits.length : Int) + d.exponent
  let negative := Binary64.negative x
  if d.digits = 0 then ⟨negative, ['0'], ['0'], none⟩
  else if -5 < point ∧ point ≤ 16 then
    ⟨negative, d.whole, if d.positions.2.isEmpty then ['0'] else d.positions.2, none⟩
  else
    ⟨negative, digits.take 1, digits.drop 1, some (point - 1 < 0, digitText (point - 1).natAbs)⟩

theorem isWritten_integerNumeral (n : Int) : (integerNumeral n).IsWritten where
  whole_ne_nil := Decimal.digitText_ne_nil _
  whole_digits _ := Decimal.isDigit_of_mem_digitText
  whole_head := Decimal.digitText_head _
  fraction_digits _ hc := nomatch hc
  exponent_digits _ he := nomatch he

theorem isWritten_exactNumeral (x : Float) : (exactNumeral x).IsWritten := by
  rw [exactNumeral]
  generalize Decimal.shortest .even (Binary64.magnitude x) = d
  have hzeroDigit : ∀ c ∈ ['0'], isDigit c = true := List.forall_mem_singleton.2 (by decide)
  by_cases hzero : d.digits = 0
  · rw [if_pos hzero]
    exact ⟨List.cons_ne_nil _ _, hzeroDigit, nofun, hzeroDigit, nofun⟩
  by_cases hpoint : -5 < (digitText d.digits).length + d.exponent ∧
      (digitText d.digits).length + d.exponent ≤ 16
  · rw [if_neg hzero, if_pos hpoint]
    obtain ⟨hne, hwhole, hfraction, -⟩ := d.isLayout_positions
    have hfraction' : ∀ c ∈ if d.positions.2.isEmpty then ['0'] else d.positions.2,
        isDigit c = true := by
      split
      · exact hzeroDigit
      · exact hfraction
    exact ⟨hne, hwhole, Decimal.whole_head hzero, hfraction', nofun⟩
  · rw [if_neg hzero, if_neg hpoint]
    have hdigits : ∀ c ∈ digitText d.digits, isDigit c = true :=
      fun _ => Decimal.isDigit_of_mem_digitText
    obtain ⟨c, rest, hcons, -⟩ := Decimal.exists_digitText_of_ne_zero hzero
    rw [hcons] at hdigits ⊢
    refine ⟨List.cons_ne_nil _ _, fun d hd => hdigits d (List.mem_of_mem_take hd), nofun,
      fun d hd => hdigits d (List.mem_of_mem_drop hd), ?_⟩
    rintro _ ⟨rfl⟩
    exact ⟨Decimal.digitText_ne_nil _, fun _ => Decimal.isDigit_of_mem_digitText⟩

theorem negative_exactNumeral (x : Float) :
    (exactNumeral x).negative = Binary64.negative x := by
  rw [exactNumeral]
  split_ifs <;> rfl

/-- The text of a float is that of its number behind its sign. -/
theorem exact_eq (x : Float) :
    Decimal.exact x = Decimal.signed (exactNumeral x).negative (exactNumeral x).text := by
  rw [negative_exactNumeral, Decimal.exact, exactNumeral]
  generalize Decimal.shortest .even (Binary64.magnitude x) = d
  simp only
  congr 1
  by_cases hzero : d.digits = 0
  · rw [if_pos hzero, if_pos hzero]
    rfl
  by_cases hpoint : -5 < (digitText d.digits).length + d.exponent ∧
      (digitText d.digits).length + d.exponent ≤ 16
  · rw [if_neg hzero, if_pos hpoint, if_neg hzero, if_pos hpoint]
    have hne : (if d.positions.2.isEmpty then ['0'] else d.positions.2).isEmpty = false := by
      split
      · rfl
      · rename_i h
        exact Bool.eq_false_iff.2 h
    rw [Numeral.text, hne]
    simp only [Bool.false_eq_true, if_false, exponentText, List.append_nil]
    rfl
  · rw [if_neg hzero, if_neg hpoint, if_neg hzero, if_neg hpoint]
    obtain ⟨c, rest, hcons, -⟩ := Decimal.exists_digitText_of_ne_zero hzero
    rw [hcons]
    generalize ((c :: rest).length : Int) + d.exponent - 1 = exponent
    have hmark : (if exponent < 0 then ['e', '-'] else ['e', '+']) ++ digitText exponent.natAbs =
        exponentText (some (decide (exponent < 0), digitText exponent.natAbs)) := by
      by_cases hsign : exponent < 0 <;> simp [exponentText, hsign]
    cases rest with
    | nil => exact congrArg (c :: ·) hmark
    | cons e rest =>
      rw [Numeral.text]
      show c :: '.' :: (e :: rest) ++ _ ++ _ = _
      rw [List.append_assoc, hmark]
      rfl

/-- So is that of an integer. -/
theorem integerText_eq (n : Int) :
    Decimal.integerText n = Decimal.signed (integerNumeral n).negative (integerNumeral n).text := by
  rw [Decimal.integerText, Numeral.text]
  simp [integerNumeral, exponentText]

/-! ## Significands -/

theorem absorb_le {significand : Nat} (h : significand ≤ Decimal.greatest64) (s : List Char) :
    (absorb significand s).1 ≤ Decimal.greatest64 := by
  induction s generalizing significand with
  | nil => exact h
  | cons c s ih =>
    rw [absorb]
    simp only
    split
    · exact h
    · exact ih (by omega)

/-- Digits within 64 bits are all taken. -/
theorem absorb_eq {significand : Nat} {s : List Char}
    (h : significand * 10 ^ s.length + digitsValue s ≤ Decimal.greatest64) :
    absorb significand s = (significand * 10 ^ s.length + digitsValue s, s.length) := by
  induction s generalizing significand with
  | nil =>
    rw [List.length_nil, pow_zero, Nat.mul_one]
    rfl
  | cons c s ih =>
    have hcons : digitsValue (c :: s) = (c.toNat - 48) * 10 ^ s.length + digitsValue s := by
      have happend := Decimal.digitsValue_append [c] s
      rwa [show digitsValue [c] = c.toNat - 48 from Nat.zero_add _] at happend
    have hvalue : significand * 10 ^ (c :: s).length + digitsValue (c :: s) =
        (10 * significand + (c.toNat - 48)) * 10 ^ s.length + digitsValue s := by
      rw [hcons, List.length_cons]
      ring
    have hle : 10 * significand + (c.toNat - 48) ≤
        (10 * significand + (c.toNat - 48)) * 10 ^ s.length :=
      Nat.le_mul_of_pos_right _ (Nat.pow_pos (by decide))
    rw [hvalue] at h ⊢
    rw [absorb, if_neg (by omega), ih h]
    rfl

/-! ## Powers of ten -/

theorem magnitude_powerOfTen (n : Nat) :
    Binary64.magnitude (powerOfTen n) = Binary64.nearest (Decimal.tenPow n) 1 :=
  Binary64.magnitude_make (Binary64.nearest_le_infinite _)

theorem nearest_tenPow_mono {m n : Nat} (h : m ≤ n) :
    Binary64.nearest (Decimal.tenPow m) 1 ≤ Binary64.nearest (Decimal.tenPow n) 1 :=
  Binary64.nearest_mono (Nat.pow_le_pow_right (by decide) h)

theorem isFinite_powerOfTen {n : Nat} (h : n ≤ 308) : Binary64.isFinite (powerOfTen n) = true := by
  have hmono := nearest_tenPow_mono h
  have htop : Binary64.nearest (Decimal.tenPow 308) 1 < Binary64.infinite := by decide +kernel
  rw [Binary64.isFinite, decide_eq_true_iff, magnitude_powerOfTen]
  omega

theorem two_le_powerOfTen {n : Nat} (h : 1 ≤ n) :
    1024 * Binary64.binade ≤ Binary64.magnitude (powerOfTen n) := by
  have hmono := nearest_tenPow_mono h
  have hten : 1024 * Binary64.binade ≤ Binary64.nearest (Decimal.tenPow 1) 1 := by decide +kernel
  rw [magnitude_powerOfTen]
  omega

theorem isFinite_div_powerOfTen {x : Float} (h : Binary64.isFinite x = true) {n : Nat}
    (hpos : 1 ≤ n) (hn : n ≤ 308) : Binary64.isFinite (x / powerOfTen n) = true :=
  Binary64.isFinite_div h (isFinite_powerOfTen hn) (two_le_powerOfTen hpos)

/-- Scaling keeps numbers finite. -/
theorem isFinite_of_scale {steps : Nat} {x y : Float} {exponent : Int}
    (hx : Binary64.isFinite x = true) (h : scale steps x exponent = .ok y) :
    Binary64.isFinite y = true := by
  induction steps generalizing x exponent with
  | zero =>
    cases h
    exact hx
  | succ steps ih =>
    rw [scale] at h
    simp only at h
    split_ifs at h with hsmall hsign hfinite hzero hsign'
    · cases h
      exact hfinite
    · cases h
      exact isFinite_div_powerOfTen hx (by omega) hsmall
    · cases h
      exact hx
    · exact ih (isFinite_div_powerOfTen hx (by decide) (by decide)) h

/-! ## Meanings -/

theorem isFinite_ofInt {n : Nat} (h : n ≤ Decimal.greatest64) :
    Binary64.isFinite (Binary64.ofInt n) = true := by
  have hmono := Binary64.nearest_mono h
  have htop : Binary64.nearest Decimal.greatest64 1 < Binary64.infinite := by decide +kernel
  rw [Binary64.isFinite, decide_eq_true_iff, Binary64.magnitude_ofInt, Int.natAbs_natCast]
  omega

theorem isFinite_signed {x : Float} (h : Binary64.isFinite x = true) (negative : Bool) :
    Binary64.isFinite (if negative then -x else x) = true := by
  cases negative with
  | false => exact h
  | true => exact Binary64.isFinite_neg h

/-- An integer of 64 bits or a finite float. -/
def Number.IsPlain : Number → Prop
  | .integer n => Decimal.leastInteger ≤ n ∧ n ≤ Decimal.greatestInteger
  | .float x => Binary64.isFinite x = true

theorem isPlain_of_scale {significand : Nat} (h : significand ≤ Decimal.greatest64)
    {steps : Nat} {exponent : Int} {negative : Bool} {v : Number}
    (hscale : (scale steps (Binary64.ofInt significand) exponent).map
      (fun x => Number.float (if negative then -x else x)) = .ok v) : v.IsPlain := by
  obtain ⟨x, hx, rfl⟩ := Outcome.map_eq_ok_iff.1 hscale
  exact isFinite_signed (isFinite_of_scale (isFinite_ofInt h) hx) negative

/-- Whatever number is read is an integer of 64 bits or a finite float. -/
theorem isPlain_of_value {n : Numeral} {v : Number} (h : n.value = .ok v) : v.IsPlain := by
  have hwhole : (absorb 0 n.whole).1 ≤ Decimal.greatest64 := absorb_le (Nat.zero_le _) _
  have hall : (absorb (absorb 0 n.whole).1 n.fraction).1 ≤ Decimal.greatest64 :=
    absorb_le hwhole _
  rw [Numeral.value] at h
  simp only at h
  split at h
  · -- digits alone
    split_ifs at h with hnegative hrange hrange <;> cases h
    · exact Binary64.isFinite_neg (isFinite_ofInt hwhole)
    · simp only [Number.IsPlain, Decimal.leastInteger, Decimal.greatestInteger]
      omega
    · simp only [Number.IsPlain, Decimal.leastInteger, Decimal.greatestInteger] at *
      omega
    · exact isFinite_ofInt hwhole
  · -- a point, an exponent or digits beyond the significand
    split at h
    · exact isPlain_of_scale hall h
    · split at h
      · split at h
        · cases h
        · cases h
          exact isFinite_signed (by decide +kernel) _
      · exact isPlain_of_scale hall h

/-- An integer of 64 bits is read back from its digits. -/
theorem value_integerNumeral {n : Int} (hlower : Decimal.leastInteger ≤ n)
    (hupper : n ≤ Decimal.greatestInteger) :
    (integerNumeral n).value = .ok (.integer n) := by
  have hdigits : digitsValue (digitText n.natAbs) = n.natAbs := Decimal.digitsValue_digitText _
  simp only [Decimal.leastInteger, Decimal.greatestInteger] at *
  have habsorb : absorb 0 (digitText n.natAbs) = (n.natAbs, (digitText n.natAbs).length) := by
    rw [absorb_eq (by rw [hdigits, Decimal.greatest64]; omega), hdigits, Nat.zero_mul, Nat.zero_add]
  simp only [Numeral.value, integerNumeral, habsorb, List.isEmpty_nil, Option.isNone_none,
    Nat.sub_self, BEq.rfl, Bool.and_self, if_true, decide_eq_true_eq, Decimal.greatestInteger]
  split
  · rw [if_neg (by omega), show -(n.natAbs : Int) = n by omega]
  · rw [if_pos (by omega), show (n.natAbs : Int) = n by omega]

end FactCube.Json
