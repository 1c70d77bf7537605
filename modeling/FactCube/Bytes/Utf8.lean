/-!
# UTF-8

A character is written in the shortest form of its scalar value. Bytes are read into symbols, which
keep a place for every byte that is part of no character; they are a text if there is no such byte.

Results:
* `decode_eq_some_iff`: bytes are a text exactly when every symbol of theirs is a character.
-/

namespace FactCube.Utf8

/-- The six low bits of a continuation byte, or nothing if the byte is none or lies outside the
bounds that the lead byte sets. -/
def continuation (low high b : UInt8) : Option Nat :=
  if low ≤ b ∧ b ≤ high then some (b.toNat - 0x80) else none

/-- The bounds of the second byte: narrower after the four lead bytes that could start a form that
is too long, a surrogate or a number beyond the last scalar value. -/
def secondBounds (lead : UInt8) : UInt8 × UInt8 :=
  if lead == 0xE0 then (0xA0, 0xBF)
  else if lead == 0xED then (0x80, 0x9F)
  else if lead == 0xF0 then (0x90, 0xBF)
  else if lead == 0xF4 then (0x80, 0x8F)
  else (0x80, 0xBF)

/-- The character of two bytes. -/
def two (a b : UInt8) : Option Char :=
  (continuation 0x80 0xBF b).map fun y => Char.ofNat ((a.toNat - 0xC0) * 64 + y)

/-- The character of three bytes. -/
def three (a b c : UInt8) : Option Char :=
  match continuation (secondBounds a).1 (secondBounds a).2 b, continuation 0x80 0xBF c with
  | some y, some z => some (Char.ofNat (((a.toNat - 0xE0) * 64 + y) * 64 + z))
  | _, _ => none

/-- The character of four bytes. -/
def four (a b c d : UInt8) : Option Char :=
  match continuation (secondBounds a).1 (secondBounds a).2 b, continuation 0x80 0xBF c,
    continuation 0x80 0xBF d with
  | some x, some y, some z => some (Char.ofNat ((((a.toNat - 0xF0) * 64 + x) * 64 + y) * 64 + z))
  | _, _, _ => none

/-- What a text of bytes is made of: a character, or `none` for a byte that belongs to none. -/
abbrev Symbol := Option Char

/-- The symbols of some bytes, after those already read, which are given in reverse. A byte that
starts no character stands alone, and reading goes on behind it. -/
def symbolsOnto : List Symbol → List UInt8 → List Symbol
  | read, [] => read.reverse
  | read, a :: rest =>
    if a < 0x80 then symbolsOnto (some (Char.ofNat a.toNat) :: read) rest
    else if a < 0xC2 then symbolsOnto (none :: read) rest
    else if a < 0xE0 then
      match rest with
      | b :: rest =>
        match two a b with
        | some char => symbolsOnto (some char :: read) rest
        | none => symbolsOnto (none :: read) (b :: rest)
      | [] => symbolsOnto (none :: read) []
    else if a < 0xF0 then
      match rest with
      | b :: c :: rest =>
        match three a b c with
        | some char => symbolsOnto (some char :: read) rest
        | none => symbolsOnto (none :: read) (b :: c :: rest)
      | rest => symbolsOnto (none :: read) rest
    else if a < 0xF5 then
      match rest with
      | b :: c :: d :: rest =>
        match four a b c d with
        | some char => symbolsOnto (some char :: read) rest
        | none => symbolsOnto (none :: read) (b :: c :: d :: rest)
      | rest => symbolsOnto (none :: read) rest
    else symbolsOnto (none :: read) rest

/-- The symbols of some bytes. -/
def symbols (bytes : List UInt8) : List Symbol := symbolsOnto [] bytes

/-- The characters of some bytes, if all of them are well formed. -/
def decode (bytes : List UInt8) : Option (List Char) := (symbols bytes).mapM id

/-- Bytes are a text exactly when every symbol of theirs is a character. -/
theorem decode_eq_some_iff {bytes : List UInt8} {s : List Char} :
    decode bytes = some s ↔ symbols bytes = s.map some := by
  unfold decode
  generalize symbols bytes = read
  induction read generalizing s with
  | nil => cases s <;> simp
  | cons x rest ih =>
    cases x with
    | none => cases s <;> simp
    | some c =>
      cases s with
      | nil => simp [Option.bind_eq_some_iff]
      | cons d s => simpa [Option.bind_eq_some_iff, ih] using And.comm

/-- The bytes of one character. -/
def encodeChar (c : Char) : List UInt8 :=
  let n := c.toNat
  let tail (shift : Nat) : UInt8 := UInt8.ofNat (0x80 + n / shift % 64)
  if n < 0x80 then [UInt8.ofNat n]
  else if n < 0x800 then [UInt8.ofNat (0xC0 + n / 64), tail 1]
  else if n < 0x10000 then [UInt8.ofNat (0xE0 + n / 4096), tail 64, tail 1]
  else [UInt8.ofNat (0xF0 + n / 262144), tail 4096, tail 64, tail 1]

/-- The bytes of a text. -/
def encode (s : List Char) : List UInt8 := s.flatMap encodeChar

end FactCube.Utf8
