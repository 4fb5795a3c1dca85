/-!
# Dates

The proleptic Gregorian calendar, in which there is a year zero and years before it
have negative numbers.  A date is counted as the number of days since the first of
January 1970 (`Date.dayNumber`), and found again from it (`Date.ofDayNumber`).
-/

namespace AccessRights.Calendar

/-- A year, a month from one and a day from one. -/
structure Date where
  year : Int
  month : Nat
  day : Nat
  deriving DecidableEq

/-- A year with a 29th of February. -/
def isLeapYear (year : Int) : Bool :=
  year % 4 == 0 && (year % 100 != 0 || year % 400 == 0)

/-- The number of days of a month; a month that does not exist has none. -/
def monthLength (year : Int) (month : Nat) : Nat :=
  match month with
  | 1 => 31
  | 2 => if isLeapYear year then 29 else 28
  | 3 => 31
  | 4 => 30
  | 5 => 31
  | 6 => 30
  | 7 => 31
  | 8 => 31
  | 9 => 30
  | 10 => 31
  | 11 => 30
  | 12 => 31
  | _ => 0

/-- The days of a year before a month starts: those of all the months before it. -/
def daysBeforeMonth (year : Int) : Nat → Nat
  | 0 => 0
  | 1 => 0
  | month + 2 => daysBeforeMonth year (month + 1) + monthLength year (month + 1)

/-- The days from the first of January of the year zero to that of a year, which are
negative for an earlier year: 365 for every year, and one more for each leap year. -/
def daysBeforeYear (year : Int) : Int :=
  365 * year + (year + 3) / 4 - (year + 99) / 100 + (year + 399) / 400

/-- The days from the first of January of the year zero to that of 1970. -/
def daysBeforeEpoch : Int := 719528

namespace Date

/-- The calendar has this date. -/
def exists? (date : Date) : Bool :=
  1 ≤ date.day && date.day ≤ monthLength date.year date.month

/-- The number of days since the first of January 1970. -/
def dayNumber (date : Date) : Int :=
  daysBeforeYear date.year + daysBeforeMonth date.year date.month + (date.day - 1 : Nat)
    - daysBeforeEpoch

/-- The date within a year, from the number of days since the year started. -/
def ofDayOfYear (year : Int) (days : Nat) : Date :=
  let month := ((List.range 12).filter fun k => daysBeforeMonth year (k + 1) ≤ days).length
  ⟨year, month, days - daysBeforeMonth year month + 1⟩

/-- The date with a given number of days since the first of January 1970.  The calendar
repeats after 400 years; within these, dividing by the length of a leap year gives the
year or the one before it. -/
def ofDayNumber (number : Int) : Date :=
  let cycleLength := daysBeforeYear 400
  let days := number + daysBeforeEpoch
  let cycle := days / cycleLength
  let rest := days % cycleLength
  let least := rest / 366
  let yearOfCycle := if daysBeforeYear (least + 1) ≤ rest then least + 1 else least
  ofDayOfYear (400 * cycle + yearOfCycle) (rest - daysBeforeYear yearOfCycle).toNat

end Date

end AccessRights.Calendar
