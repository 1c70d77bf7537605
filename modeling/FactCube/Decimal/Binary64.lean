/-!
# The grid of binary64 numbers

A finite binary64 number is a sign and a *magnitude*: the 63 low bits of its pattern. Magnitudes are
counted upwards from zero, so the order of magnitudes is the order of the numbers. The magnitude `b`
stands for the rational `magnitudeRatio b`, and `nearest` rounds a rational to the grid: to the
nearest neighbour, an exact tie to the even one.

Results:
* `roundHalfEven_mul`: rounding an integer changes nothing.
-/

namespace FactCube.Binary64

/-! ## Magnitudes -/

/-- The count of magnitudes in one binade, `2^52`. -/
def binade : Nat := 4503599627370496

/-- The magnitude of infinity; the finite numbers lie below it. -/
def infinite : Nat := 2047 * binade

/-- The number of the sign bit, `2^63`. -/
def signBit : Nat := 9223372036854775808

/-- The rational a finite magnitude stands for, as numerator and denominator. -/
def magnitudeRatio (b : Nat) : Nat × Nat :=
  let exponent := b / binade
  let fraction := b % binade
  if exponent = 0 then (fraction, 1 <<< 1074)
  else if exponent < 1075 then (fraction + binade, 1 <<< (1075 - exponent))
  else ((fraction + binade) <<< (exponent - 1075), 1)

/-! ## Rounding -/

/-- The integer nearest to `num / den`; of two equally near ones the even one. -/
def roundHalfEven (num den : Nat) : Nat :=
  let q := num / den
  let r := num % den
  if 2 * r < den then q
  else if den < 2 * r then q + 1
  else if q % 2 = 0 then q else q + 1

/-- The exponent of the greatest power of two that is at most `num / den`, for positive parts. -/
def log2Ratio (num den : Nat) : Int :=
  let guess := (num.log2 : Int) - (den.log2 : Int)
  let tooGreat :=
    if 0 ≤ guess then num < den <<< guess.toNat else num <<< (-guess).toNat < den
  if tooGreat then guess - 1 else guess

/-- The magnitude nearest to `num / den`; what lies beyond the last finite number is infinite. -/
def nearest (num den : Nat) : Nat :=
  if num = 0 then 0
  else
    let exponent := (log2Ratio num den + 1022).toNat
    let significand :=
      if exponent ≤ 1074 then roundHalfEven (num <<< (1074 - exponent)) den
      else roundHalfEven num (den <<< (exponent - 1074))
    Nat.min (exponent * binade + significand) infinite

/-! ## Numbers and their parts -/

/-- The number with a given sign and magnitude. -/
def make (negative : Bool) (magnitude : Nat) : Float :=
  Float.ofBits (UInt64.ofNat (if negative then signBit + magnitude else magnitude))

/-- Whether the sign bit is set. -/
def negative (x : Float) : Bool := signBit ≤ x.toBits.toNat

/-- The pattern without the sign bit. -/
def magnitude (x : Float) : Nat := x.toBits.toNat % signBit

/-- Whether a number is neither infinite nor a NaN. -/
def isFinite (x : Float) : Bool := magnitude x < infinite

/-- Whether a pattern is no number. -/
def isNotNumber (x : Float) : Bool := infinite < magnitude x

/-- The number nearest to an integer. -/
def ofInt (n : Int) : Float := make (n < 0) (nearest n.natAbs 1)

/-- The number with the two zeros identified. -/
def unsignedZero (x : Float) : Float := if magnitude x = 0 then make false 0 else x

/-- The place of a number in the total order of patterns: numbers by size, `-0` right below `0`. The
sum of two opposite infinities, which is no number, sorts below all numbers. -/
def place (x : Float) : Int :=
  if isNotNumber x then -(signBit : Int) - 1
  else if negative x then -(magnitude x : Int) - 1
  else magnitude x

/-! ## Small lemmas -/

theorem roundHalfEven_mul (n : Nat) {den : Nat} (h : 0 < den) :
    roundHalfEven (n * den) den = n := by
  simp [roundHalfEven, Nat.mul_div_cancel n h, h]

end FactCube.Binary64
