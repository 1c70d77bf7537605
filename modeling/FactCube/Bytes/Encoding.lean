import FactCube.Bytes.Utf8
import FactCube.Text.Split

/-!
# Character encodings

Input can be written in five encodings, named by the labels of the web platform. A byte order mark
at the start of some bytes decides their encoding, whatever was asked for, and is not part of the
text. Bytes that are malformed in their encoding make the whole text unreadable.
-/

namespace FactCube

/-- A supported encoding. -/
inductive Encoding
  | utf8
  | windows1252
  | iso885915
  | utf16le
  | utf16be
deriving DecidableEq, Repr

namespace Encoding

/-! ## Names -/

/-- The name of an encoding. -/
def name : Encoding → String
  | .utf8 => "UTF-8"
  | .windows1252 => "windows-1252"
  | .iso885915 => "ISO-8859-15"
  | .utf16le => "UTF-16LE"
  | .utf16be => "UTF-16BE"

/-- The labels of each encoding, in lower case. -/
def labels : List (Encoding × List String) :=
  [(.utf8,
    ["unicode-1-1-utf-8", "unicode11utf8", "unicode20utf8", "utf-8", "utf8", "x-unicode20utf8"]),
   (.windows1252,
    ["ansi_x3.4-1968", "ascii", "cp1252", "cp819", "csisolatin1", "ibm819", "iso-8859-1",
     "iso-ir-100", "iso8859-1", "iso88591", "iso_8859-1", "iso_8859-1:1987", "l1", "latin1",
     "us-ascii", "windows-1252", "x-cp1252"]),
   (.iso885915,
    ["csisolatin9", "iso-8859-15", "iso8859-15", "iso885915", "iso_8859-15", "l9"]),
   (.utf16be, ["unicodefffe", "utf-16be"]),
   (.utf16le,
    ["csunicode", "iso-10646-ucs-2", "ucs-2", "unicode", "unicodefeff", "utf-16", "utf-16le"])]

/-- The encoding a label names, blanks at its ends and letter case aside. -/
def ofLabel? (label : String) : Option Encoding :=
  let label := Text.lowered (Text.trimmed label)
  (labels.find? fun (_, names) => names.contains label).map Prod.fst

/-! ## Byte order marks -/

/-- The encoding a byte order mark at the start of some bytes stands for, and what follows it. -/
def ofMark? : List UInt8 → Option (Encoding × List UInt8)
  | 0xEF :: 0xBB :: 0xBF :: rest => some (.utf8, rest)
  | 0xFF :: 0xFE :: rest => some (.utf16le, rest)
  | 0xFE :: 0xFF :: rest => some (.utf16be, rest)
  | _ => none

/-! ## One byte for each character -/

/-- The scalar values of the bytes 80 to 9F in windows-1252. -/
def windowsControls : List Nat :=
  [0x20AC, 0x81, 0x201A, 0x0192, 0x201E, 0x2026, 0x2020, 0x2021,
   0x02C6, 0x2030, 0x0160, 0x2039, 0x0152, 0x8D, 0x017D, 0x8F,
   0x90, 0x2018, 0x2019, 0x201C, 0x201D, 0x2022, 0x2013, 0x2014,
   0x02DC, 0x2122, 0x0161, 0x203A, 0x0153, 0x9D, 0x017E, 0x0178]

/-- The character of a byte in windows-1252. -/
def windowsChar (b : UInt8) : Char :=
  if 0x80 ≤ b ∧ b < 0xA0 then Char.ofNat (windowsControls.getD (b.toNat - 0x80) 0)
  else Char.ofNat b.toNat

/-- The character of a byte in ISO-8859-15. -/
def latin9Char (b : UInt8) : Char :=
  if b == 0xA4 then '€'
  else if b == 0xA6 then 'Š'
  else if b == 0xA8 then 'š'
  else if b == 0xB4 then 'Ž'
  else if b == 0xB8 then 'ž'
  else if b == 0xBC then 'Œ'
  else if b == 0xBD then 'œ'
  else if b == 0xBE then 'Ÿ'
  else Char.ofNat b.toNat

/-! ## Sixteen-bit units -/

/-- The units of some bytes, if their count is even; `join` puts a first and a second byte
together. -/
def units (join : UInt8 → UInt8 → Nat) : List UInt8 → Option (List Nat)
  | [] => some []
  | a :: b :: rest => (units join rest).map (join a b :: ·)
  | [_] => none

/-- The characters of some units, if every surrogate is one of a pair. -/
def ofUnits : List Nat → Option (List Char)
  | [] => some []
  | u :: rest =>
    if u < 0xD800 ∨ 0xE000 ≤ u then (ofUnits rest).map (Char.ofNat u :: ·)
    else if u < 0xDC00 then
      match rest with
      | v :: rest =>
        if 0xDC00 ≤ v ∧ v < 0xE000 then
          (ofUnits rest).map (Char.ofNat (0x10000 + (u - 0xD800) * 1024 + (v - 0xDC00)) :: ·)
        else none
      | [] => none
    else none

/-- The unit of two bytes, the low one first. -/
def lowFirst (a b : UInt8) : Nat := b.toNat * 256 + a.toNat

/-- The unit of two bytes, the high one first. -/
def highFirst (a b : UInt8) : Nat := a.toNat * 256 + b.toNat

/-! ## Decoding -/

/-- The text of some bytes in an encoding, byte order marks taken as characters. -/
def decodePlain : Encoding → List UInt8 → Option (List Char)
  | .utf8, bytes => Utf8.decode bytes
  | .windows1252, bytes => some (bytes.map windowsChar)
  | .iso885915, bytes => some (bytes.map latin9Char)
  | .utf16le, bytes => (units lowFirst bytes).bind ofUnits
  | .utf16be, bytes => (units highFirst bytes).bind ofUnits

/-- The text of some bytes; a byte order mark overrides the encoding. -/
def decode (encoding : Encoding) (bytes : List UInt8) : Option String :=
  let (encoding, bytes) := (ofMark? bytes).getD (encoding, bytes)
  (decodePlain encoding bytes).map String.ofList

/-- What is said of bytes that are malformed in an encoding. -/
def malformedMessage (encoding : Encoding) : String :=
  s!"Failed to decode text with encoding " ++ encoding.name

/-- What is said of a label that names no encoding. -/
def unknownMessage (label : String) : String := s!"Unknown encoding '{label}'"

end Encoding

end FactCube
