/-!
# The civil calendar

Days are numbered from 1970-01-01, day 0, in the proleptic Gregorian calendar. A year is found
by its first day, a month by its first day within the year.
-/

namespace SeriesQuery

/-- A date of the proleptic Gregorian calendar; months and days count from one. -/
structure Date where
  year : Int
  month : Nat
  day : Nat
deriving DecidableEq, Repr

namespace Calendar

def isLeapYear (year : Int) : Bool :=
  year % 4 == 0 && (year % 100 != 0 || year % 400 == 0)

def yearStart (year : Int) : Int :=
  365 * (year - 1970) + (year - 1) / 4 - (year - 1) / 100 + (year - 1) / 400 - 477

/-- The year of a day. The mean length of a year gives the year or a neighbour of it. -/
def yearOf (day : Int) : Int :=
  let guess := day * 400 / 146097 + 1970
  if day < yearStart guess then guess - 1
  else if yearStart (guess + 1) ≤ day then guess + 1
  else guess

def monthLength (leap : Bool) (month : Nat) : Nat :=
  if month = 2 then (if leap then 29 else 28)
  else if month = 4 ∨ month = 6 ∨ month = 9 ∨ month = 11 then 30
  else 31

def daysBefore (leap : Bool) : Nat → Nat
  | 0 => 0
  | 1 => 0
  | month + 1 => daysBefore leap month + monthLength leap month

def monthOf (leap : Bool) (dayOfYear : Nat) : Nat → Nat
  | 0 => 1
  | month + 1 =>
    if daysBefore leap (month + 1) ≤ dayOfYear then month + 1 else monthOf leap dayOfYear month

def monthStart (year : Int) (month : Nat) : Int :=
  yearStart year + daysBefore (isLeapYear year) month

/-- Days since Monday: day 0 is a Thursday. -/
def daysSinceMonday (day : Int) : Int :=
  (day + 3) % 7

end Calendar

def Date.ofDay (day : Int) : Date :=
  let year := Calendar.yearOf day
  let leap := Calendar.isLeapYear year
  let dayOfYear := (day - Calendar.yearStart year).toNat
  let month := Calendar.monthOf leap dayOfYear 12
  ⟨year, month, dayOfYear - Calendar.daysBefore leap month + 1⟩

def Date.day? (date : Date) : Option Int :=
  if 1 ≤ date.month ∧ date.month ≤ 12 ∧ 1 ≤ date.day ∧
      date.day ≤ Calendar.monthLength (Calendar.isLeapYear date.year) date.month then
    some (Calendar.monthStart date.year date.month + date.day - 1)
  else none

end SeriesQuery
