import FactCube.Bytes.Utf8
import FactCube.Json.Node

/-!
# Reading JSON

The reader turns any text into a node and the text after it; there is no text after a broken node.
The text is given by its symbols: a byte that is part of no character can stand in a string only.
Every step takes at least one symbol, so the length of the text bounds the count of steps.
-/

namespace FactCube.Json

open Utf8 (Symbol)

/-! ## Blanks, words and strings -/

/-- Whether a character may stand between the parts of a JSON text. -/
def isSpace (c : Char) : Bool := c == ' ' || c == '\t' || c == '\n' || c == '\r'

/-- The text without the blanks at its start. -/
def skipSpace (s : List Symbol) : List Symbol := s.dropWhile fun x => x.any isSpace

/-- The text after a word, or what is wrong where it should stand. -/
def readWord : List Char → List Symbol → Except JsonFault (List Symbol)
  | [], s => .ok s
  | _ :: _, [] => .error .endsEarly
  | c :: word, x :: s => if x == some c then readWord word s else .error .malformed

/-- The value of a digit in base sixteen. -/
def hexValue? (c : Char) : Option Nat :=
  if '0' ≤ c ∧ c ≤ '9' then some (c.toNat - 48)
  else if 'a' ≤ c ∧ c ≤ 'f' then some (c.toNat - 87)
  else if 'A' ≤ c ∧ c ≤ 'F' then some (c.toNat - 55)
  else none

/-- The unit of four digits. -/
def hex4? (a b c d : Symbol) : Option Nat :=
  match a.bind hexValue?, b.bind hexValue?, c.bind hexValue?, d.bind hexValue? with
  | some a, some b, some c, some d => some (((a * 16 + b) * 16 + c) * 16 + d)
  | _, _, _, _ => none

/-- The fault of an escape with fewer than four digits: whether the text has four more bytes
decides. -/
def shortEscape (s : List Symbol) : JsonFault :=
  if s.foldl (fun size x => size + (x.map Char.utf8Size).getD 1) 0 < 4 then .endsEarly
  else .malformed

/-- The character that a letter after a backslash stands for. -/
def escaped? (c : Char) : Option Char :=
  if c == '"' || c == '\\' || c == '/' then some c
  else if c == 'b' then some '\x08'
  else if c == 'f' then some '\x0c'
  else if c == 'n' then some '\n'
  else if c == 'r' then some '\r'
  else if c == 't' then some '\t'
  else none

/-- A piece in front of a string. -/
def RawText.cons (piece : Piece) (t : RawText × Option (List Symbol)) :
    RawText × Option (List Symbol) :=
  (⟨piece :: t.1.pieces, t.1.stop⟩, t.2)

/-- A string that stops here with a fault. -/
def RawText.stopped (fault : JsonFault) : RawText × Option (List Symbol) :=
  (⟨[], some fault⟩, none)

/-- The string that starts after an opening quote and the text after it. -/
def readString : List Symbol → RawText × Option (List Symbol)
  | [] => RawText.stopped .endsEarly
  | some '"' :: rest => (⟨[], none⟩, some rest)
  | some '\\' :: some 'u' :: rest =>
    match rest with
    | a :: b :: c :: d :: rest' =>
      match hex4? a b c d with
      | some n => RawText.cons (.unit n) (readString rest')
      | none => RawText.stopped .malformed
    | _ => RawText.stopped (shortEscape rest)
  | [some '\\'] => RawText.stopped .endsEarly
  | some '\\' :: x :: rest =>
    match x.bind escaped? with
    | some c => RawText.cons (.char c) (readString rest)
    | none => RawText.stopped .malformed
  | some c :: rest =>
    if c.toNat < 0x20 then RawText.stopped .malformed else RawText.cons (.char c) (readString rest)
  | none :: rest => RawText.cons .stray (readString rest)

/-! ## Numbers -/

/-- The digits at the start of a text and what follows them. -/
def spanDigits : List Symbol → List Char × List Symbol
  | some c :: rest =>
    if Decimal.isDigit c then ((c :: (spanDigits rest).1), (spanDigits rest).2)
    else ([], some c :: rest)
  | s => ([], s)

/-- The sign at the start of a text, `true` for minus, and what follows it. -/
def spanSign : List Symbol → Bool × List Symbol
  | some '-' :: rest => (true, rest)
  | some '+' :: rest => (false, rest)
  | s => (false, s)

/-- A node that is no number: the fault depends on whether the text ends here. -/
def noNumber (s : List Symbol) : Node × Option (List Symbol) :=
  (.broken (if s.isEmpty then .endsEarly else .malformed) .malformed, none)

/-- The exponent of a number whose digits are known. -/
def readExponent (negative : Bool) (whole fraction : List Char) (s : List Symbol) :
    Node × Option (List Symbol) :=
  let mantissa (rest : List Symbol) : Node × Option (List Symbol) :=
    (.number ⟨negative, whole, fraction, none⟩, some rest)
  match s with
  | [] => mantissa []
  | x :: rest =>
    if x == some 'e' || x == some 'E' then
      let (below, rest) := spanSign rest
      let (digits, rest) := spanDigits rest
      if digits.isEmpty then noNumber rest
      else (.number ⟨negative, whole, fraction, some (below, digits)⟩, some rest)
    else mantissa (x :: rest)

/-- The number that starts a text after its sign. A zero in front of another digit is malformed. -/
def readNumber (negative : Bool) (s : List Symbol) : Node × Option (List Symbol) :=
  let (whole, rest) := spanDigits s
  match whole with
  | [] => noNumber s
  | '0' :: _ :: _ => (.broken .malformed .malformed, none)
  | whole =>
    match rest with
    | some '.' :: rest =>
      let (fraction, rest) := spanDigits rest
      if fraction.isEmpty then noNumber rest else readExponent negative whole fraction rest
    | rest => readExponent negative whole [] rest

/-! ## Values -/

/-- The node of a word that has to follow its first letter. -/
def readNamed (node : Node) (word : List Char) (s : List Symbol) : Node × Option (List Symbol) :=
  match readWord word s with
  | .ok rest => (node, some rest)
  | .error fault => (.broken fault fault, none)

mutual

/-- The value at the start of a text, in at most `fuel` steps. -/
def readValue : Nat → List Symbol → Node × Option (List Symbol)
  | 0, _ => (.broken .endsEarly .endsEarly, none)
  | fuel + 1, s =>
    match skipSpace s with
    | [] => (.broken .endsEarly .endsEarly, none)
    | some '"' :: rest =>
      let (raw, rest) := readString rest
      (.text raw, rest)
    | some '[' :: rest =>
      let (items, stop, rest) := readItems fuel true rest
      (.list items stop, rest)
    | some '{' :: rest =>
      let (members, stop, rest) := readMembers fuel true rest
      (.table members stop, rest)
    | some 'n' :: rest => readNamed .null ['u', 'l', 'l'] rest
    | some 't' :: rest => readNamed (.boolean true) ['r', 'u', 'e'] rest
    | some 'f' :: rest => readNamed (.boolean false) ['a', 'l', 's', 'e'] rest
    | some '-' :: rest => readNumber true rest
    | x :: rest =>
      if x.any Decimal.isDigit then readNumber false (x :: rest)
      else (.broken .malformed .malformed, none)

/-- The items of an array up to its end; `first` if none was read yet. -/
def readItems : Nat → Bool → List Symbol → List Node × Option JsonFault × Option (List Symbol)
  | 0, _, _ => ([], some .endsEarly, none)
  | fuel + 1, first, s =>
    match skipSpace s with
    | [] => ([], some .endsEarly, none)
    | some ']' :: rest => ([], none, some rest)
    | x :: rest =>
      if first then nextItem fuel (x :: rest)
      else if x == some ',' then
        match skipSpace rest with
        | some ']' :: _ => ([.broken .malformed .malformed], none, none)
        | _ => nextItem fuel rest
      else ([], some .malformed, none)

/-- An item and the items after it. -/
def nextItem : Nat → List Symbol → List Node × Option JsonFault × Option (List Symbol)
  | 0, _ => ([], some .endsEarly, none)
  | fuel + 1, s =>
    match readValue fuel s with
    | (item, none) => ([item], none, none)
    | (item, some rest) =>
      let (items, stop, rest) := readItems fuel false rest
      (item :: items, stop, rest)

/-- The members of an object up to its end; `first` if none was read yet. -/
def readMembers :
    Nat → Bool → List Symbol → List (RawText × Node) × Option JsonFault × Option (List Symbol)
  | 0, _, _ => ([], some .endsEarly, none)
  | fuel + 1, first, s =>
    match skipSpace s with
    | [] => ([], some .endsEarly, none)
    | some '}' :: rest => ([], none, some rest)
    | x :: rest =>
      if first then
        if x == some '"' then nextMember fuel rest else ([], some .malformed, none)
      else if x == some ',' then
        match skipSpace rest with
        | some '"' :: rest => nextMember fuel rest
        | [] => ([], some .endsEarly, none)
        | _ => ([], some .malformed, none)
      else ([], some .malformed, none)

/-- A member whose name starts after an opening quote, and the members after it. -/
def nextMember :
    Nat → List Symbol → List (RawText × Node) × Option JsonFault × Option (List Symbol)
  | 0, _ => ([], some .endsEarly, none)
  | fuel + 1, s =>
    match readString s with
    | (name, none) => ([(name, .broken .malformed .malformed)], none, none)
    | (name, some rest) =>
      match skipSpace rest with
      | [] => ([(name, .broken .endsEarly .endsEarly)], none, none)
      | some ':' :: rest =>
        match readValue fuel rest with
        | (value, none) => ([(name, value)], none, none)
        | (value, some rest) =>
          let (members, stop, rest) := readMembers fuel false rest
          ((name, value) :: members, stop, rest)
      | _ => ([(name, .broken .malformed .malformed)], none, none)

end

/-- The node of a text and the text after it. -/
def read (s : List Symbol) : Node × Option (List Symbol) := readValue (3 * s.length + 3) s

end FactCube.Json
