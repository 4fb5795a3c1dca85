import AccessRights.Calendar.Timestamp

/-!
# Release dates

A release date is written in one of four forms: a timestamp with an offset, a date and
a time joined by `T` or by white space, or a date alone, which means midnight.  Without
an offset the time is UTC.  White space around the text does not count.

The last three forms are lenient (`laxDate`, `laxTime`): numbers may be shorter than
usual, have white space in front, and a year may have a sign and any number of digits.
Each number is checked against its range as soon as it is read, and the date once the
text has been read to its end.

The forms are tried in this order and the first that fits decides.  Where none fits,
the text is out of range if it was so for any of the forms.
-/

namespace AccessRights.Calendar

open FieldReader

/-- Why a text is not a release date. -/
inductive DateProblem
  /-- There is nothing but white space. -/
  | noTimeInformation
  /-- A number is outside its range, or the calendar does not have the date. -/
  | outOfRange
  /-- The text has none of the known forms. -/
  | unrecognized
  deriving DecidableEq

/-- What a report says of the problem. -/
def DateProblem.description : DateProblem → String
  | noTimeInformation => "no time information"
  | outOfRange => "argument out of range"
  | unrecognized => "unrecognized date format"

namespace ReleaseDate

/-- Reads a year.  After a sign it may have any number of digits, and has to fit a signed
number of 32 bits. -/
def laxYear : FieldReader Int := do
  skipSpace
  match (← get) with
  | '-' :: rest =>
    set rest
    let year ← longNumber
    within (year ≤ 2147483648)
    pure (-year)
  | '+' :: rest =>
    set rest
    let year ← longNumber
    within (year ≤ 2147483647)
    pure year
  | _ =>
    let year ← number 4
    pure year

/-- Reads another field, which has one or two digits. -/
def laxField (least greatest : Nat) : FieldReader Nat := do
  skipSpace
  let value ← number 2
  within (least ≤ value && value ≤ greatest)
  pure value

/-- Reads a date, which need not exist. -/
def laxDate : FieldReader Date := do
  let year ← laxYear
  oneOf (· == '-')
  let month ← laxField 1 12
  oneOf (· == '-')
  let day ← laxField 1 31
  pure ⟨year, month, day⟩

/-- Reads a time. -/
def laxTime : FieldReader TimeOfDay := do
  let hour ← laxField 0 23
  oneOf (· == ':')
  let minute ← laxField 0 59
  oneOf (· == ':')
  let second ← laxField 0 60
  let nanos ← fraction
  pure ⟨hour, minute, second, nanos⟩

/-- The date is one of the calendar, in a year not too far away. -/
def isSupported (date : Date) : Bool :=
  -262143 ≤ date.year && date.year ≤ 262142 && date.exists?

/-- Reads the end of the text, and gives the instant of a date and time in UTC. -/
def conclude (date : Date) (time : TimeOfDay) : FieldReader Instant := do
  finish
  within (isSupported date)
  pure (.ofLocal date time 0)

/-- Reads a date and a time with `separator` between them. -/
def laxDateTime (separator : FieldReader Unit) : FieldReader Instant := do
  let date ← laxDate
  separator
  let time ← laxTime
  conclude date time

/-- Reads a date alone. -/
def laxDateOnly : FieldReader Instant := do
  let date ← laxDate
  conclude date .midnight

/-- What the four forms make of a text. -/
def attempts (cs : List Char) : List (Except Failure Instant) :=
  [Timestamp.parse cs,
    (laxDateTime (oneOf (· == 'T'))).read cs,
    (laxDateTime skipSpace).read cs,
    laxDateOnly.read cs]

/-- An attempt failed because of a number or date outside its range. -/
def wasOutOfRange : Except Failure Instant → Bool
  | .error .outOfRange => true
  | _ => false

/-- The first success, or else what the failures come to. -/
def settle (attempts : List (Except Failure Instant)) : Except DateProblem Instant :=
  match attempts.findSome? Except.toOption with
  | some instant => .ok instant
  | none => .error (if attempts.any wasOutOfRange then .outOfRange else .unrecognized)

/-- The instant that a text names. -/
def parse (text : String) : Except DateProblem Instant :=
  let trimmed := Text.trim text.toList
  if trimmed.isEmpty then .error .noTimeInformation else settle (attempts trimmed)

end ReleaseDate

end AccessRights.Calendar
