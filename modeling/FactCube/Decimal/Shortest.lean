import FactCube.Decimal.Binary64

/-!
# Shortest decimals

The decimal text of a number is the one with the fewest digits that reads back as the same number,
and among those the one nearest to it. Digits are found on the decimal grids of one, two, up to
seventeen digits: the first grid with a point that reads back wins, and only the two neighbours of
the number on a grid need a test. Reading back is tested with the rounding that numbers are read by,
so whatever is chosen does read back.
-/

namespace FactCube.Decimal

/-- A decimal: the integer `digits` times ten to the power `exponent`. -/
structure Scaled where
  digits : Nat
  exponent : Int
deriving DecidableEq, Repr

/-- Which neighbour is taken when a number lies half-way between two decimals that both read
back. -/
inductive Tie
  /-- The greater one. -/
  | up
  /-- The one with an even last digit. -/
  | even
deriving DecidableEq, Repr

/-! ## Powers of ten -/

/-- Ten to the power `n`. -/
def tenPow (n : Nat) : Nat := Nat.pow 10 n

/-- The count of digits of a positive integer; zero has none. -/
def digitCount (n : Nat) : Nat := if n = 0 then 0 else (Nat.toDigits 10 n).length

/-- The decimal as a numerator and a denominator. -/
def Scaled.ratio (d : Scaled) : Nat × Nat :=
  if 0 ≤ d.exponent then (d.digits * tenPow d.exponent.toNat, 1)
  else (d.digits, tenPow (-d.exponent).toNat)

/-- The magnitude nearest to a decimal. Decimals far outside the range of the grid are settled by
their count of digits. -/
def Scaled.magnitude (d : Scaled) : Nat :=
  let size := (digitCount d.digits : Int) + d.exponent
  if d.digits = 0 ∨ size < -330 then 0
  else if 310 < size then Binary64.infinite
  else Binary64.nearest d.ratio.1 d.ratio.2

/-- The exponent of the greatest power of ten that is at most `num / den`, for positive parts. -/
def log10Ratio (num den : Nat) : Int :=
  let guess := Binary64.log2Ratio num den * 30103 / 100000
  let fits (p : Int) : Bool :=
    if 0 ≤ p then den * tenPow p.toNat ≤ num else den ≤ num * tenPow (-p).toNat
  if fits (guess + 1) then guess + 1 else if fits guess then guess else guess - 1

/-! ## The search -/

/-- The point of the grid with the step ten to the power `step` that reads back as `magnitude`, if
one of the two neighbours of `num / den` does; the nearer one if both do. -/
def onGrid (tie : Tie) (magnitude num den : Nat) (step : Int) : Option Scaled :=
  let (n, d) :=
    if 0 ≤ step then (num, den * tenPow step.toNat) else (num * tenPow (-step).toNat, den)
  let below : Scaled := ⟨n / d, step⟩
  let above : Scaled := ⟨n / d + 1, step⟩
  let rest := n % d
  let takesBelow := 2 * rest < d || (2 * rest == d && tie == .even && below.digits % 2 == 0)
  let (first, second) := if takesBelow then (below, above) else (above, below)
  if first.magnitude = magnitude then some first
  else if second.magnitude = magnitude then some second
  else none

/-- All digits of the rational `num / den`, where `den` is a power of two. -/
def inFull (num den : Nat) : Scaled := ⟨num * Nat.pow 5 den.log2, -(den.log2 : Int)⟩

/-- The decimal without the zeros at its end. -/
def Scaled.stripped (d : Scaled) : Scaled :=
  let digits := Nat.toDigits 10 d.digits
  let zeros := (digits.reverse.takeWhile (· == '0')).length
  if d.digits = 0 then ⟨0, 0⟩ else ⟨d.digits / tenPow zeros, d.exponent + zeros⟩

/-- The shortest decimal that reads back as a finite magnitude. -/
def shortest (tie : Tie) (magnitude : Nat) : Scaled :=
  if magnitude = 0 then ⟨0, 0⟩
  else
    let (num, den) := Binary64.magnitudeRatio magnitude
    let top := log10Ratio num den
    let found := (List.range 17).findSome? fun (n : Nat) => onGrid tie magnitude num den (top - n)
    (found.getD (inFull num den)).stripped

end FactCube.Decimal
