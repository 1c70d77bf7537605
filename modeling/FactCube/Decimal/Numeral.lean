import FactCube.Decimal.Shortest
import FactCube.Text.Blank

/-!
# Reading numbers

An integer is an optional sign and digits. A number has an optional sign, digits with an optional
point (and a digit on at least one side of it) and an optional exponent; it is rounded to the
nearest binary64 number. The words for infinity and for no number are read as such, so that callers
can refuse them for what they are.
-/

namespace FactCube.Decimal

/-! ## Digits -/

/-- The value of an ASCII digit. -/
def digitValue? (c : Char) : Option Nat :=
  if '0' ≤ c ∧ c ≤ '9' then some (c.toNat - 48) else none

/-- Whether a character is an ASCII digit. -/
def isDigit (c : Char) : Bool := (digitValue? c).isSome

/-- The value of a list of digits, the first the most significant. -/
def digitsValue (s : List Char) : Nat := s.foldl (fun n c => 10 * n + (c.toNat - 48)) 0

/-- The digits at the start of a text and what follows them. -/
def spanDigits (s : List Char) : List Char × List Char := (s.takeWhile isDigit, s.dropWhile isDigit)

/-- The value of a text of digits only, at least one. -/
def natural? (s : List Char) : Option Nat :=
  if s.isEmpty || !s.all isDigit then none else some (digitsValue s)

/-- The sign at the start of a text, `true` for minus, and what follows it. -/
def spanSign : List Char → Bool × List Char
  | '-' :: rest => (true, rest)
  | '+' :: rest => (false, rest)
  | s => (false, s)

/-! ## Integers -/

/-- The least and the greatest value of a 64-bit integer. -/
def leastInteger : Int := -9223372036854775808

/-- The greatest 64-bit integer. -/
def greatestInteger : Int := 9223372036854775807

/-- An optional sign and digits, within 64 bits. -/
def integer? (s : List Char) : Option Int :=
  let (negative, digits) := spanSign s
  match natural? digits with
  | none => none
  | some n =>
    let value : Int := if negative then -n else n
    if leastInteger ≤ value ∧ value ≤ greatestInteger then some value else none

/-- An optional plus sign and digits, at most `greatest`. -/
def count? (greatest : Nat) (s : List Char) : Option Nat :=
  let digits := match s with
    | '+' :: rest => rest
    | s => s
  match natural? digits with
  | none => none
  | some n => if n ≤ greatest then some n else none

/-- The greatest 32-bit count. -/
def greatest32 : Nat := 4294967295

/-- The greatest 64-bit count. -/
def greatest64 : Nat := 18446744073709551615

/-! ## Numbers -/

/-- The exponent at the end of a number: nothing, or a letter, an optional sign and digits. -/
def exponent? : List Char → Option Int
  | [] => some 0
  | c :: rest =>
    if c == 'e' || c == 'E' then
      let (negative, digits) := spanSign rest
      (natural? digits).map fun (n : Nat) => if negative then -(n : Int) else n
    else none

/-- Digits with an optional point, then an optional exponent. -/
def scaled? (s : List Char) : Option Scaled :=
  let (whole, rest) := spanDigits s
  let (fraction, rest) := match rest with
    | '.' :: rest => spanDigits rest
    | rest => ([], rest)
  if whole.isEmpty && fraction.isEmpty then none
  else (exponent? rest).map fun e => ⟨digitsValue (whole ++ fraction), e - fraction.length⟩

/-- The words for infinity and for no number, in any letter case. -/
def word? (s : List Char) : Option Float :=
  let word := String.ofList (s.map Char.toLower)
  if word == "inf" || word == "infinity" then some (Binary64.make false Binary64.infinite)
  else if word == "nan" then some (0.0 / 0.0)
  else none

/-- The number a text stands for, infinity if it lies beyond the grid. -/
def number? (s : List Char) : Option Float :=
  let (negative, body) := spanSign s
  match scaled? body with
  | some d => some (Binary64.make negative d.magnitude)
  | none => (word? body).map fun x => if negative then -x else x

end FactCube.Decimal
