import AccessRights.Calendar.Date

/-!
# Instants

An instant is a second, counted from the start of the year 1970 in UTC, and the
nanoseconds that have passed in it.  A leap second has no number of its own: it is the
second before it, drawn out to twice its length, so that its nanoseconds start at
10⁹.  Instants are ordered by the second and then by the nanoseconds.
-/

namespace AccessRights.Calendar

/-- A point in time. -/
structure Instant where
  seconds : Int
  nanos : Nat
  deriving DecidableEq

/-- A time of day.  The second 60 is a leap second. -/
structure TimeOfDay where
  hour : Nat
  minute : Nat
  second : Nat
  nanos : Nat
  deriving DecidableEq

/-- The nanoseconds of one second. -/
def nanosPerSecond : Nat := 1000000000

/-- The clock shows this time on some day. -/
def TimeOfDay.exists? (time : TimeOfDay) : Bool :=
  time.hour ≤ 23 && time.minute ≤ 59 && time.second ≤ 60

/-- Midnight. -/
def TimeOfDay.midnight : TimeOfDay :=
  ⟨0, 0, 0, 0⟩

namespace Instant

/-- The instant at which a clock that is `offset` seconds ahead of UTC shows a date and
a time. -/
def ofLocal (date : Date) (time : TimeOfDay) (offset : Int) : Instant :=
  let minutes : Int := time.hour * 60 + time.minute
  if time.second = 60 then
    ⟨date.dayNumber * 86400 + minutes * 60 + 59 - offset, time.nanos + nanosPerSecond⟩
  else
    ⟨date.dayNumber * 86400 + minutes * 60 + time.second - offset, time.nanos⟩

/-- One instant is before another. -/
protected def lt (a b : Instant) : Prop :=
  a.seconds < b.seconds ∨ a.seconds = b.seconds ∧ a.nanos < b.nanos

instance : LT Instant :=
  ⟨Instant.lt⟩

instance (a b : Instant) : Decidable (a < b) :=
  inferInstanceAs (Decidable (a.seconds < b.seconds ∨ a.seconds = b.seconds ∧ a.nanos < b.nanos))

/-- Seconds are compared first. -/
theorem lt_iff {a b : Instant} :
    a < b ↔ a.seconds < b.seconds ∨ a.seconds = b.seconds ∧ a.nanos < b.nanos :=
  Iff.rfl

/-- The date and the time of day in UTC. -/
def toUtc (instant : Instant) : Date × TimeOfDay :=
  let ofDay := (instant.seconds % 86400).toNat
  let leap := nanosPerSecond ≤ instant.nanos
  (Date.ofDayNumber (instant.seconds / 86400),
    { hour := ofDay / 3600
      minute := ofDay / 60 % 60
      second := if leap then ofDay % 60 + 1 else ofDay % 60
      nanos := if leap then instant.nanos - nanosPerSecond else instant.nanos })

end Instant

end AccessRights.Calendar
