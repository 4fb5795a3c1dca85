import AccessRights.Calendar.Field
import AccessRights.Calendar.Instant
import AccessRights.Text.Utf8

/-!
# Internet timestamps

The form of RFC 3339: a date, the letter `T` or a space, a time with an optional
fraction, and `Z` or an offset from UTC, as in `2030-04-05T06:07:08.5+02:00`.  Letters
may be small.  Every number has its full count of digits.

A date that does not exist is reported before anything after it is looked at; numbers
of the time are checked once all of the time has been read, and the offset once the
text has been read to its end.
-/

namespace AccessRights.Calendar

open FieldReader

namespace Timestamp

/-- Reads a date of full length. -/
def date : FieldReader Date := do
  let year ← fourDigits
  oneOf (· == '-')
  let month ← twoDigits
  oneOf (· == '-')
  let day ← twoDigits
  let date : Date := ⟨year, month, day⟩
  within date.exists?
  pure date

/-- Reads a time of full length. -/
def time : FieldReader TimeOfDay := do
  let hour ← twoDigits
  oneOf (· == ':')
  let minute ← twoDigits
  oneOf (· == ':')
  let second ← twoDigits
  let nanos ← fraction
  let time : TimeOfDay := ⟨hour, minute, second, nanos⟩
  within time.exists?
  pure time

/-- Reads hours and minutes of an offset.  More than 59 minutes are refused at once. -/
def offsetMinutes : FieldReader Nat := do
  let hours ← twoDigits
  oneOf (· == ':')
  let tens ← digit
  let ones ← digit
  within (tens < 6)
  pure (hours * 60 + 10 * tens + ones)

/-- Reads what says how far the clock is ahead of UTC, in minutes. -/
def offset : FieldReader Int := do
  let c ← next
  if c = 'Z' ∨ c = 'z' then pure 0
  else if c = '+' then
    let minutes ← offsetMinutes
    pure minutes
  else if c = '-' ∨ c = '\u2212' then
    let minutes ← offsetMinutes
    pure (-minutes)
  else throw .otherForm

/-- Reads a whole timestamp. -/
def instant : FieldReader Instant := do
  let date ← date
  oneOf fun c => c == 'T' || c == 't' || c == ' '
  let time ← time
  let offset ← offset
  finish
  within (-1440 < offset && offset < 1440)
  pure (.ofLocal date time (offset * 60))

/-- The least number of bytes of a timestamp without its offset. -/
def leastLength : Nat := 19

/-- The instant that a text names in this form.  A text that is too short is not looked
at. -/
def parse (cs : List Char) : Except Failure Instant :=
  if Text.utf8Length cs < leastLength then .error .otherForm else instant.read cs

/-- The digits of a number, with zeros in front up to a width. -/
def padded (width n : Nat) : List Char :=
  let digits := Nat.toDigits 10 n
  List.replicate (width - digits.length) '0' ++ digits

/-- A year in writing.  One with other than four digits has its sign in front. -/
def renderYear (year : Int) : List Char :=
  if 0 ≤ year ∧ year ≤ 9999 then padded 4 year.toNat
  else (if year < 0 then '-' else '+') :: padded 4 year.natAbs

/-- The fraction of a second in writing: none, three, six or nine digits, as few as are
exact. -/
def renderFraction (nanos : Nat) : List Char :=
  if nanos = 0 then []
  else if nanos % 1000000 = 0 then '.' :: padded 3 (nanos / 1000000)
  else if nanos % 1000 = 0 then '.' :: padded 6 (nanos / 1000)
  else '.' :: padded 9 nanos

/-- An instant in this form, in UTC. -/
def render (instant : Instant) : String :=
  let (date, time) := instant.toUtc
  String.ofList (renderYear date.year ++ '-' :: padded 2 date.month ++ '-' :: padded 2 date.day
    ++ 'T' :: padded 2 time.hour ++ ':' :: padded 2 time.minute ++ ':' :: padded 2 time.second
    ++ renderFraction time.nanos ++ ['Z'])

end Timestamp

end AccessRights.Calendar
