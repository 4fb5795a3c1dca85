import AccessRights.Calendar.ReleaseDate
import AccessRights.Proofs.CalendarDays
import AccessRights.Proofs.WrittenNumbers

/-!
# Dates and times in writing

What the readers make of a date or a time whose numbers are written with their full count of
digits, whatever the numbers are.  Every such text has the right form, so that a reader can
only fail because of a range, and each law below says under exactly which condition it does not:
`WrittenDate.Possible` and `WrittenTime.Possible` where the calendar and the clock decide,
`WrittenDate.InRange` where the lenient reader has not looked at the length of the month yet.

The laws have `if` on their right side and are put together by `bind_of_ite`: a check that
fails ends the reading, and one that does not leaves the text that follows.
-/

namespace AccessRights.Calendar

open FieldReader Timestamp

/-- The numbers of a date, of which each has as many digits as it needs.  Such a date need not
exist. -/
structure WrittenDate where
  year : Nat
  month : Nat
  day : Nat
  year_lt : year < 10000
  month_lt : month < 100
  day_lt : day < 100

/-- The numbers of a time, which need not exist either, and the digits after the point. -/
structure WrittenTime where
  hour : Nat
  minute : Nat
  second : Nat
  fraction : List (Fin 10)
  hour_lt : hour < 100
  minute_lt : minute < 100
  second_lt : second < 100

/-- How far a clock is ahead of UTC or behind it. -/
inductive Zone
  | utc
  | ahead (hours : Fin 24) (minutes : Fin 60)
  | behind (hours : Fin 24) (minutes : Fin 60)

/-- What comes next does not go on with the number before it. -/
def EndsNumber (rest : List Char) : Prop :=
  ∀ c ∈ rest.head?, c ≠ '.' ∧ Text.decimalDigit? c = none

namespace WrittenDate

variable (date : WrittenDate)

/-- As in `2030-04-05`. -/
def text : List Char :=
  padded 4 date.year ++ '-' :: (padded 2 date.month ++ '-' :: padded 2 date.day)

/-- What the numbers say. -/
def toDate : Date :=
  ⟨date.year, date.month, date.day⟩

/-- The calendar has the day. -/
def Possible : Prop :=
  IsDay date.year date.month date.day

instance : Decidable date.Possible :=
  inferInstanceAs (Decidable (IsDay date.year date.month date.day))

/-- Some month has the day. -/
def InRange : Prop :=
  (1 ≤ date.month ∧ date.month ≤ 12) ∧ 1 ≤ date.day ∧ date.day ≤ 31

instance : Decidable date.InRange :=
  inferInstanceAs (Decidable (_ ∧ _))

variable {date}

/-- A day of the calendar is one that some month has; `2030-02-31` shows that more are. -/
theorem Possible.inRange (h : date.Possible) : date.InRange :=
  ⟨⟨h.one_le_month, h.month_le⟩, h.one_le_day, h.day_le⟩

variable (date) (rest : List Char)

/-- The three numbers and the hyphens between them, with whatever follows the date. -/
theorem text_append : date.text ++ rest =
    padded 4 date.year ++
      '-' :: (padded 2 date.month ++ '-' :: (padded 2 date.day ++ rest)) := by
  rw [text, List.append_assoc, List.cons_append, List.append_assoc, List.cons_append]

/-- **A written date is read exactly if the calendar has the day.**  The rest is left as it is. -/
theorem read_text : Timestamp.date (date.text ++ rest) =
    if date.Possible then .ok (date.toDate, rest) else .error .outOfRange := by
  rw [text_append, Timestamp.date, bind_of_ok (fourDigits_padded _ date.year_lt),
    bind_of_ok (oneOf_cons _ _ _), bind_of_ok (twoDigits_padded _ date.month_lt),
    bind_of_ok (oneOf_cons _ _ _), bind_of_ok (twoDigits_padded _ date.day_lt),
    bind_of_ite (within_eq _ _)]
  exact if_congr Date.exists?_eq_true_iff rfl rfl

/-- The tolerant reader of years takes one that is written with four digits. -/
theorem laxYear_padded {year : Nat} (h : year < 10000) :
    ReleaseDate.laxYear (padded 4 year ++ rest) = .ok ((year : Int), rest) := by
  have hwidth : 0 < 4 := by decide
  obtain ⟨first, digits, hdigits⟩ := exists_padded_eq_cons hwidth h
  have hminus : Nat.digitChar first ≠ '-' := digitChar_ne rfl first
  have hplus : Nat.digitChar first ≠ '+' := digitChar_ne rfl first
  rw [ReleaseDate.laxYear, bind_of_ok (skipSpace_padded _ hwidth h),
    bind_of_ok (a := padded 4 year ++ rest) rfl]
  refine (congrFun (g := number 4 >>= fun year => pure (year : Int)) ?_ _).trans ?_
  · rw [hdigits]
    split
    · next heq => exact absurd (List.cons.inj heq).1 hminus
    · next heq => exact absurd (List.cons.inj heq).1 hplus
    · rfl
  · rw [bind_of_ok (number_padded _ hwidth h)]
    rfl

/-- Two digits are read as a field exactly if the number is one that the field may have. -/
theorem laxField_padded (least greatest : Nat) {value : Nat} (h : value < 100) :
    ReleaseDate.laxField least greatest (padded 2 value ++ rest) =
      if least ≤ value ∧ value ≤ greatest then .ok (value, rest) else .error .outOfRange := by
  rw [ReleaseDate.laxField, bind_of_ok (skipSpace_padded _ (by decide) h),
    bind_of_ok (number_padded _ (by decide) h), bind_of_ite (within_eq _ _)]
  refine if_congr ?_ rfl rfl
  rw [Bool.and_eq_true, decide_eq_true_iff, decide_eq_true_iff]

/-- **The tolerant reader only asks for a day that some month has.**  That the month of the date
has it is asked when the instant is made. -/
theorem laxDate_text : ReleaseDate.laxDate (date.text ++ rest) =
    if date.InRange then .ok (date.toDate, rest) else .error .outOfRange := by
  rw [text_append, ReleaseDate.laxDate, bind_of_ok (laxYear_padded _ date.year_lt),
    bind_of_ok (oneOf_cons _ _ _), bind_of_ite (laxField_padded _ _ _ date.month_lt),
    bind_of_ok (oneOf_cons _ _ _), bind_of_ite (laxField_padded _ _ _ date.day_lt), ← ite_and]
  rfl

end WrittenDate

namespace WrittenTime

variable (time : WrittenTime)

/-- As in `06:07:08.5`. -/
def text : List Char :=
  padded 2 time.hour ++ ':' :: (padded 2 time.minute ++
    ':' :: (padded 2 time.second ++ fractionText time.fraction))

/-- What the numbers say. -/
def toTimeOfDay : TimeOfDay :=
  ⟨time.hour, time.minute, time.second, nanosOf (time.fraction.map Fin.val)⟩

/-- The clock shows the time on some day. -/
def Possible : Prop :=
  time.hour < 24 ∧ time.minute < 60 ∧ time.second ≤ 60

instance : Decidable time.Possible :=
  inferInstanceAs (Decidable (_ ∧ _))

/-- The check of a time of day is about its hour, minute and second; no fraction is too much. -/
theorem exists?_toTimeOfDay : time.toTimeOfDay.exists? = true ↔ time.Possible := by
  rw [TimeOfDay.exists?, Bool.and_eq_true, Bool.and_eq_true, decide_eq_true_iff,
    decide_eq_true_iff, decide_eq_true_iff]
  show (time.hour ≤ 23 ∧ time.minute ≤ 59) ∧ time.second ≤ 60 ↔ _
  unfold Possible
  omega

/-- The numbers, the colons between them and the fraction, with whatever follows the time. -/
theorem text_append (rest : List Char) : time.text ++ rest =
    padded 2 time.hour ++ ':' :: (padded 2 time.minute ++
      ':' :: (padded 2 time.second ++ (fractionText time.fraction ++ rest))) := by
  rw [text, List.append_assoc, List.cons_append, List.append_assoc, List.cons_append,
    List.append_assoc]

variable {rest : List Char} (hrest : EndsNumber rest)
include hrest

/-- **A written time is read exactly if a clock shows it**, a leap second included. -/
theorem read_text : Timestamp.time (time.text ++ rest) =
    if time.Possible then .ok (time.toTimeOfDay, rest) else .error .outOfRange := by
  rw [text_append, Timestamp.time, bind_of_ok (twoDigits_padded _ time.hour_lt),
    bind_of_ok (oneOf_cons _ _ _), bind_of_ok (twoDigits_padded _ time.minute_lt),
    bind_of_ok (oneOf_cons _ _ _), bind_of_ok (twoDigits_padded _ time.second_lt),
    bind_of_ok (fraction_fractionText _ hrest), bind_of_ite (within_eq _ _)]
  exact if_congr time.exists?_toTimeOfDay rfl rfl

/-- **The tolerant reader of times asks for the same.** -/
theorem laxTime_text : ReleaseDate.laxTime (time.text ++ rest) =
    if time.Possible then .ok (time.toTimeOfDay, rest) else .error .outOfRange := by
  rw [text_append, ReleaseDate.laxTime,
    bind_of_ite (WrittenDate.laxField_padded _ _ _ time.hour_lt),
    bind_of_ok (oneOf_cons _ _ _), bind_of_ite (WrittenDate.laxField_padded _ _ _ time.minute_lt),
    bind_of_ok (oneOf_cons _ _ _), bind_of_ite (WrittenDate.laxField_padded _ _ _ time.second_lt),
    bind_of_ok (fraction_fractionText _ hrest), ← ite_and, ← ite_and]
  refine if_congr ?_ rfl rfl
  unfold Possible
  omega

end WrittenTime

namespace Zone

/-- The letter or the offset. -/
def text : Zone → List Char
  | utc => ['Z']
  | ahead hours minutes => '+' :: (padded 2 hours ++ ':' :: padded 2 minutes)
  | behind hours minutes => '-' :: (padded 2 hours ++ ':' :: padded 2 minutes)

/-- The minutes that a clock is ahead of UTC. -/
def minutes : Zone → Int
  | utc => 0
  | ahead hours minutes => (hours * 60 + minutes : Nat)
  | behind hours minutes => -(hours * 60 + minutes : Nat)

/-- Two digits, a colon and two digits are the minutes that they say, as the second number has no
more than six tens. -/
theorem offsetMinutes_padded (hours : Fin 24) (minutes : Fin 60) :
    offsetMinutes (padded 2 hours ++ ':' :: padded 2 minutes) =
      .ok ((hours * 60 + minutes : Nat), []) := by
  have hhours : hours.val < 100 := by omega
  have htens : (Fin.ofNat 10 (minutes.val / 10)).val < 6 := by
    rw [Fin.val_ofNat]
    omega
  have hdigits : padded 2 minutes.val = [Nat.digitChar (Fin.ofNat 10 (minutes.val / 10)).val,
      Nat.digitChar (Fin.ofNat 10 minutes.val).val] :=
    padded_eq (by decide) (Nat.lt_trans minutes.isLt (by decide))
  have hvalue : hours.val * 60 + 10 * (minutes.val / 10 % 10) + minutes.val % 10 =
      hours.val * 60 + minutes.val := by omega
  rw [hdigits, offsetMinutes, bind_of_ok (twoDigits_padded _ hhours), bind_of_ok (oneOf_cons _ _ _),
    bind_of_ok (digit_digitChar _ _), bind_of_ok (digit_digitChar _ _),
    bind_of_ok ((within_eq _ _).trans (if_pos (decide_eq_true htens))), Fin.val_ofNat,
    Fin.val_ofNat, hvalue]
  rfl

/-- **Every written zone is read**, and as the minutes it stands for. -/
theorem offset_text (zone : Zone) : offset zone.text = .ok (zone.minutes, []) := by
  cases zone with
  | utc => rfl
  | ahead hours minutes =>
    show (offsetMinutes >>= fun minutes => pure (minutes : Int))
      (padded 2 hours ++ ':' :: padded 2 minutes) = _
    rw [bind_of_ok (offsetMinutes_padded hours minutes)]
    rfl
  | behind hours minutes =>
    show (offsetMinutes >>= fun minutes => pure (-minutes : Int))
      (padded 2 hours ++ ':' :: padded 2 minutes) = _
    rw [bind_of_ok (offsetMinutes_padded hours minutes)]
    rfl

/-- A zone is less than a day away. -/
theorem minutes_lt (zone : Zone) : -1440 < zone.minutes ∧ zone.minutes < 1440 := by
  cases zone with
  | utc => decide
  | ahead hours minutes =>
    show -1440 < ((hours * 60 + minutes : Nat) : Int) ∧ ((hours * 60 + minutes : Nat) : Int) < 1440
    omega
  | behind hours minutes =>
    show -1440 < -((hours * 60 + minutes : Nat) : Int) ∧
      -((hours * 60 + minutes : Nat) : Int) < 1440
    omega

/-- A zone does not start with a digit or a point, so that a time in front of it ends there. -/
theorem endsNumber_text (zone : Zone) : EndsNumber zone.text := by
  intro c hc
  cases zone <;> (cases hc; decide)

end Zone

end AccessRights.Calendar
