import FactCube.Decimal.Shortest

/-!
# How numbers are written

Three layouts share the shortest digits or the exact value of a number.

* `plain` never uses an exponent and drops the fraction of a whole number.
* `exact` is the layout of JSON: always with a fraction or an exponent, positional from `1e-5` up to
  below `1e16`.
* `amount` has two places, rounded from the exact value with ties to even.
-/

namespace FactCube.Decimal

/-! ## Pieces -/

/-- The digits of an integer. -/
def digitText (n : Nat) : List Char := Nat.toDigits 10 n

/-- As many zeros as asked for. -/
def zeros (n : Nat) : List Char := List.replicate n '0'

/-- The digits before and after the point of a decimal, the first list empty below one. -/
def Scaled.positions (d : Scaled) : List Char × List Char :=
  let digits := digitText d.digits
  if 0 ≤ d.exponent then (digits ++ zeros d.exponent.toNat, [])
  else
    let point := (digits.length : Int) + d.exponent
    if 0 < point then (digits.take point.toNat, digits.drop point.toNat)
    else ([], zeros (-point).toNat ++ digits)

/-- The text with a minus sign in front if asked for. -/
def signed (negative : Bool) (text : List Char) : String :=
  String.ofList (if negative then '-' :: text else text)

/-- The text of an integer: a minus sign below zero and the digits. -/
def integerText (n : Int) : String := signed (n < 0) (digitText n.natAbs)

/-! ## Layouts -/

/-- The shortest digits in positional notation; a whole number has no fraction. -/
def plain (x : Float) : String :=
  if Binary64.isNotNumber x then "NaN"
  else
    let negative := Binary64.negative x
    if !Binary64.isFinite x then signed negative "inf".toList
    else
      let (whole, fraction) := (shortest .up (Binary64.magnitude x)).positions
      let whole := if whole.isEmpty then ['0'] else whole
      signed negative (if fraction.isEmpty then whole else whole ++ '.' :: fraction)

/-- One digit, a fraction if there are more, and the exponent with its sign. -/
def scientific (digits : List Char) (exponent : Int) : List Char :=
  let mark := if exponent < 0 then ['e', '-'] else ['e', '+']
  match digits with
  | [] => []
  | [d] => d :: mark ++ digitText exponent.natAbs
  | d :: rest => d :: '.' :: rest ++ mark ++ digitText exponent.natAbs

/-- The layout of a finite number in JSON. -/
def exact (x : Float) : String :=
  let d := shortest .even (Binary64.magnitude x)
  let digits := digitText d.digits
  let point := (digits.length : Int) + d.exponent
  let text :=
    if d.digits = 0 then ['0', '.', '0']
    else if -5 < point ∧ point ≤ 16 then
      let (whole, fraction) := d.positions
      (if whole.isEmpty then ['0'] else whole) ++
        '.' :: (if fraction.isEmpty then ['0'] else fraction)
    else scientific digits (point - 1)
  signed (Binary64.negative x) text

/-- A whole number of hundredths with its point. -/
def hundredths (n : Nat) : List Char :=
  digitText (n / 100) ++ ['.', Nat.digitChar (n / 10 % 10), Nat.digitChar (n % 10)]

/-- Two places, rounded from the exact value, a tie to the even neighbour. -/
def amount (x : Float) : String :=
  if Binary64.isNotNumber x then "NaN"
  else
    let negative := Binary64.negative x
    if !Binary64.isFinite x then signed negative "inf".toList
    else
      let (num, den) := Binary64.magnitudeRatio (Binary64.magnitude x)
      signed negative (hundredths (Binary64.roundHalfEven (100 * num) den))

end FactCube.Decimal
