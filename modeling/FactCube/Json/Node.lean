import FactCube.Decimal.Numeral

/-!
# JSON as it is read

A JSON text is read into nodes that keep what the text says: members in their order with repeated
names, numbers digit by digit, strings with their surrogate escapes still apart and with the bytes
that are part of no character. Where the text is not JSON, the node there is broken and nothing
follows it. What the nodes mean is decided later, in the order of the text, so that of several
faults the first one that matters is reported.
-/

namespace FactCube

/-- What is wrong with a JSON text. -/
inductive JsonFault
  /-- The text ends before the value does. -/
  | endsEarly
  /-- The text is not JSON. -/
  | malformed
  /-- The text is JSON but does not have the shape asked for. -/
  | unfit
deriving DecidableEq, Repr

namespace Json

/-! ## Strings -/

/-- A piece of a string: a character, a sixteen-bit unit written as an escape, or a byte that is
part of no character. -/
inductive Piece
  | char (c : Char)
  | unit (n : Nat)
  | stray
deriving DecidableEq, Repr

/-- The pieces of a string, and why it stops if it is not closed. -/
structure RawText where
  pieces : List Piece
  stop : Option JsonFault
deriving DecidableEq, Repr

/-- What the end of a string says to a first surrogate that waits for its second. -/
def unpaired : Option JsonFault → JsonFault
  | some .endsEarly => .endsEarly
  | _ => .malformed

/-- The characters of some pieces. Surrogates have to come in pairs, and stray bytes have none. -/
def joinPieces (stop : Option JsonFault) : List Piece → Except JsonFault (List Char)
  | [] => match stop with
    | none => .ok []
    | some fault => .error fault
  | .char c :: rest => (joinPieces stop rest).map (c :: ·)
  | .stray :: _ => .error .malformed
  | .unit u :: rest =>
    if u < 0xD800 ∨ 0xE000 ≤ u then (joinPieces stop rest).map (Char.ofNat u :: ·)
    else if 0xDC00 ≤ u then .error .malformed
    else match rest with
      | [] => .error (unpaired stop)
      | .char _ :: _ | .stray :: _ => .error .malformed
      | .unit v :: rest =>
        if 0xDC00 ≤ v ∧ v < 0xE000 then
          (joinPieces stop rest).map
            (Char.ofNat (0x10000 + (u - 0xD800) * 1024 + (v - 0xDC00)) :: ·)
        else .error .malformed

/-- The text of a string. -/
def RawText.text (t : RawText) : Except JsonFault String :=
  (joinPieces t.stop t.pieces).map String.ofList

/-! ## Numbers -/

/-- The digits of a number: before the point, after it, and those of the exponent, which is negative
if its flag is set. -/
structure Numeral where
  negative : Bool
  whole : List Char
  fraction : List Char
  exponent : Option (Bool × List Char)
deriving DecidableEq, Repr

/-- What a number means: a 64-bit integer if it is written as one, else a float. -/
inductive Number
  | integer (n : Int)
  | float (x : Float)

/-- Takes digits into a significand as long as it stays within 64 bits: the significand and how many
digits it took. -/
def absorb : Nat → List Char → Nat × Nat
  | significand, [] => (significand, 0)
  | significand, c :: rest =>
    let next := 10 * significand + (c.toNat - 48)
    if Decimal.greatest64 < next then (significand, 0)
    else
      let (last, taken) := absorb next rest
      (last, taken + 1)

/-- The float nearest to a power of ten. -/
def powerOfTen (n : Nat) : Float :=
  Binary64.make false (Binary64.nearest (Decimal.tenPow n) 1)

/-- A float times a power of ten, by one multiplication or division, after divisions by `1e308`
where the power is smaller than that; what leaves the range is malformed. -/
def scale : Nat → Float → Int → Except JsonFault Float
  | 0, x, _ => .ok x
  | steps + 1, x, exponent =>
    if exponent.natAbs ≤ 308 then
      if 0 ≤ exponent then
        let y := x * powerOfTen exponent.natAbs
        if Binary64.isFinite y then .ok y else .error .malformed
      else .ok (x / powerOfTen exponent.natAbs)
    else if Binary64.magnitude x = 0 then .ok x
    else if 0 ≤ exponent then .error .malformed
    else scale steps (x / powerOfTen 308) (exponent + 308)

/-- The greatest exponent that is added up. -/
def greatestExponent : Nat := 2147483647

/-- What a number means. A significand of at most 64 bits is rounded to a float and then scaled, so
digits beyond it and the last bit of the result may be lost. -/
def Numeral.value (n : Numeral) : Except JsonFault Number :=
  let (whole, taken) := absorb 0 n.whole
  let dropped := n.whole.length - taken
  if n.fraction.isEmpty && n.exponent.isNone && dropped == 0 then
    if n.negative then
      if whole = 0 ∨ 9223372036854775808 < whole then
        .ok (.float (-(Binary64.ofInt whole)))
      else .ok (.integer (-(whole : Int)))
    else if (whole : Int) ≤ Decimal.greatestInteger then .ok (.integer whole)
    else .ok (.float (Binary64.ofInt whole))
  else
    let (significand, taken) := absorb whole n.fraction
    let start : Int := (dropped : Int) - taken
    let signed (x : Float) : Float := if n.negative then -x else x
    let finish (exponent : Int) : Except JsonFault Number :=
      (scale 4 (Binary64.ofInt significand) exponent).map fun x => .float (signed x)
    match n.exponent with
    | none => finish start
    | some (below, digits) =>
      let size := Decimal.digitsValue digits
      if greatestExponent < size then
        if significand ≠ 0 ∧ !below then .error .malformed
        else .ok (.float (signed (Binary64.make false 0)))
      else finish (if below then start - size else start + size)

/-! ## Nodes -/

/-- A value as it stands in a text. -/
inductive Node
  | null
  | boolean (truth : Bool)
  | number (numeral : Numeral)
  | text (raw : RawText)
  /-- The items of an array, and why it stops if it is not closed. -/
  | list (items : List Node) (stop : Option JsonFault)
  /-- The members of an object, and why it stops if it is not closed. -/
  | table (members : List (RawText × Node)) (stop : Option JsonFault)
  /-- No value: the fault found by one who wants the value and by one who skips it. -/
  | broken (wanted skipped : JsonFault)

end Json

end FactCube
