import FactCube.Calendar.Date
import FactCube.Decimal.Layout

/-!
# Periods

A period is a date together with the precision it was recorded at, so that a year stays a year when
it is written again. Periods are ordered by their date and, on one date, from coarse to fine.
-/

namespace FactCube

/-! ## Precision -/

/-- How precisely a date was recorded. -/
inductive Granularity
  | year
  | month
  | day
deriving DecidableEq, Repr

/-- Granularities numbered from coarse to fine. -/
def Granularity.rank : Granularity → Nat
  | .year => 0
  | .month => 1
  | .day => 2

/-- The word for a granularity. -/
def Granularity.name : Granularity → String
  | .year => "year"
  | .month => "month"
  | .day => "day"

/-- A date and the precision it was recorded at; the parts finer than that are those of the first
day of the period. -/
structure Period where
  date : Date
  granularity : Granularity
deriving DecidableEq

/-- By date, then from coarse to fine. -/
def Period.compare (a b : Period) : Ordering :=
  (a.date.compare b.date).then (Ord.compare a.granularity.rank b.granularity.rank)

/-! ## Writing -/

/-- The digits of a number with zeros in front up to a width. -/
def padded (width n : Nat) : List Char :=
  let digits := Decimal.digitText n
  Decimal.zeros (width - digits.length) ++ digits

/-- The label of a year: four characters or more, a minus sign counting as one. -/
def yearLabel (year : Int) : String :=
  if year < 0 then String.ofList ('-' :: padded 3 year.natAbs)
  else String.ofList (padded 4 year.natAbs)

/-- The year in a date: four digits up to 9999, otherwise a sign and at least four digits. -/
def fullYear (year : Int) : List Char :=
  if year < 0 then '-' :: padded 4 year.natAbs
  else if year ≤ 9999 then padded 4 year.natAbs
  else '+' :: padded 4 year.natAbs

/-- The label of the period's year. -/
def Period.yearLabel (p : Period) : String := FactCube.yearLabel p.date.year

/-- The label of the period's month: year and month. -/
def Period.monthLabel (p : Period) : String :=
  p.yearLabel ++ String.ofList ('-' :: padded 2 p.date.month)

/-- Year, month and day with dashes between them. -/
def Date.text (d : Date) : String :=
  String.ofList (fullYear d.year ++ '-' :: padded 2 d.month ++ '-' :: padded 2 d.day)

/-- The period at its own precision. -/
def Period.text (p : Period) : String :=
  match p.granularity with
  | .year => p.yearLabel
  | .month => p.monthLabel
  | .day => p.date.text

end FactCube
