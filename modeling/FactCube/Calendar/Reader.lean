import FactCube.Calendar.Period
import FactCube.Decimal.Numeral
import FactCube.Text.Split

/-!
# Reading periods

A period is written as a year of four digits, as such a year and a month of one or two digits, or as
a day in one of four orders of year, month and day. The day formats are tried in a fixed order and
the first that fits the whole text wins.
-/

namespace FactCube

/-! ## Day formats -/

/-- One element of a day format. -/
inductive DateField
  | year
  | month
  | day
  /-- A character that has to be there. -/
  | mark (c : Char)
deriving DecidableEq

/-- The parts of a date read so far. -/
structure DateParts where
  year : Int
  month : Nat
  day : Nat

/-- The formats of a day, in the order in which they are tried. -/
def dayFormats : List (List DateField) :=
  [[.year, .mark '-', .month, .mark '-', .day],
   [.day, .mark '/', .month, .mark '/', .year],
   [.year, .mark '/', .month, .mark '/', .day],
   [.day, .mark '-', .month, .mark '-', .year]]

/-- Digits at the start of a text, at least one and at most `width` of them, and what follows. -/
def spanNumber (width : Nat) (s : List Char) : Option (Nat × List Char) :=
  let digits := (s.take width).takeWhile Decimal.isDigit
  if digits.isEmpty then none else some (Decimal.digitsValue digits, s.drop digits.length)

/-- A year: at most four digits, or a sign and any count of digits. -/
def spanYear : List Char → Option (Int × List Char)
  | '-' :: rest => (spanNumber rest.length rest).map fun (n, rest) => (-(n : Int), rest)
  | '+' :: rest => (spanNumber rest.length rest).map fun (n, rest) => ((n : Int), rest)
  | s => (spanNumber 4 s).map fun (n, rest) => ((n : Int), rest)

/-- Reads the elements of a format one after the other; blanks may stand before each number, and
nothing may be left over. -/
def readFields : List DateField → DateParts → List Char → Option DateParts
  | [], parts, s => if s.isEmpty then some parts else none
  | .mark c :: fields, parts, s =>
    match s with
    | [] => none
    | first :: rest => if first == c then readFields fields parts rest else none
  | .year :: fields, parts, s =>
    match spanYear (Text.trimLeft s) with
    | none => none
    | some (year, rest) => readFields fields { parts with year := year } rest
  | .month :: fields, parts, s =>
    match spanNumber 2 (Text.trimLeft s) with
    | none => none
    | some (month, rest) => readFields fields { parts with month := month } rest
  | .day :: fields, parts, s =>
    match spanNumber 2 (Text.trimLeft s) with
    | none => none
    | some (day, rest) => readFields fields { parts with day := day } rest

/-- The day a text names in one format. -/
def readDay (format : List DateField) (s : List Char) : Option Date :=
  match readFields format ⟨0, 0, 0⟩ s with
  | none => none
  | some parts => Date.ofParts? parts.year parts.month parts.day

/-! ## Years and months -/

/-- A year of exactly four digits. -/
def year4? (s : List Char) : Option Int :=
  if s.length == 4 && s.all Decimal.isDigit then some (Decimal.digitsValue s) else none

/-- A year of four digits, a dash and a month of one or two digits, whatever the month. -/
def yearAndMonth? (s : List Char) : Option (Int × Nat) :=
  match Text.splitFirst '-' s with
  | none => none
  | some (year, month) =>
    if year.length == 4 && (month.length == 1 || month.length == 2) &&
        (year ++ month).all Decimal.isDigit then
      some (Decimal.digitsValue year, Decimal.digitsValue month)
    else none

/-! ## Periods -/

/-- The period a text without blanks at its ends stands for. A text with the shape of a year and a
month is not tried as a day. -/
def readPeriod (s : List Char) : Option Period :=
  match year4? s with
  | some year => (Date.ofParts? year 1 1).map fun date => ⟨date, .year⟩
  | none =>
    match yearAndMonth? s with
    | some (year, month) => (Date.ofParts? year month 1).map fun date => ⟨date, .month⟩
    | none => (dayFormats.findSome? fun format => readDay format s).map fun date => ⟨date, .day⟩

/-- The period a text stands for, blanks at its ends aside. -/
def Period.ofText? (s : String) : Option Period := readPeriod (Text.trim s.toList)

end FactCube
