import AccessRights.Calendar.Date
import Mathlib.Tactic.IntervalCases

/-!
# Days of the calendar

What days there are, and how they are numbered, in terms that owe nothing to the way in which
`Date` works them out.  `IsDay` lists the days: which months are short, and when February has
a 29th.  `daysSinceEpoch` numbers them by a single formula.  Its years start in March, so
that a leap day is the last day of its year and the months before it keep their places, and
five months from March on always have 153 days.

`Date.exists?_eq_true_iff` and `Date.dayNumber_eq` are the two laws that tie this to `Date`.
`Date.dayNumber_lt` says that later dates have greater numbers.  It comes from counting in
whole months and years (`daysBeforeMonth_succ`, `daysBeforeYear_succ`), where a date lies
strictly before the start of the next one.
-/

namespace AccessRights.Calendar

/-- A year with a leap day: every fourth one, but of the years that end a century every
fourth one only. -/
def HasLeapDay (year : Int) : Prop :=
  4 ∣ year ∧ (100 ∣ year → 400 ∣ year)

/-- The calendar has the day. -/
structure IsDay (year : Int) (month day : Nat) : Prop where
  one_le_month : 1 ≤ month
  month_le : month ≤ 12
  one_le_day : 1 ≤ day
  day_le : day ≤ 31
  /-- April, June, September and November are short. -/
  shortMonth : month = 4 ∨ month = 6 ∨ month = 9 ∨ month = 11 → day ≤ 30
  february : month = 2 → day ≤ 29
  leapDay : month = 2 → day = 29 → HasLeapDay year

/-- The number of days since the first of January 1970, in a year that starts in March and
whose months are counted from zero. -/
def daysFromMarch (year : Int) (month day : Nat) : Int :=
  365 * year + year / 4 - year / 100 + year / 400 + ((153 * month + 2) / 5 : Nat) + day - 719469

/-- The number of days since the first of January 1970.  January and February are the last
two months of the year that started in March of the year before. -/
def daysSinceEpoch (year : Int) (month day : Nat) : Int :=
  if month ≤ 2 then daysFromMarch (year - 1) (month + 9) day
  else daysFromMarch year (month - 3) day

/-! ## Which days there are -/

theorem isLeapYear_eq_true_iff {year : Int} : isLeapYear year = true ↔ HasLeapDay year := by
  unfold isLeapYear HasLeapDay
  rw [Bool.and_eq_true, Bool.or_eq_true, beq_iff_eq, beq_iff_eq, bne_iff_ne]
  omega

/-- A month that exists has 31 days, unless it is February or a short one. -/
theorem monthLength_eq {month : Nat} (year : Int) (hfirst : 1 ≤ month) (hlast : month ≤ 12) :
    monthLength year month =
      if month = 2 then (if isLeapYear year then 29 else 28)
      else if month = 4 ∨ month = 6 ∨ month = 9 ∨ month = 11 then 30 else 31 := by
  interval_cases month <;> rfl

theorem monthLength_eq_zero {month : Nat} (year : Int) (h : ¬ (1 ≤ month ∧ month ≤ 12)) :
    monthLength year month = 0 := by
  unfold monthLength
  split
  case h_13 => rfl
  all_goals omega

namespace Date

/-- **Which dates there are.** -/
theorem exists?_eq_true_iff {date : Date} :
    date.exists? = true ↔ IsDay date.year date.month date.day := by
  obtain ⟨year, month, day⟩ := date
  show (decide (1 ≤ day) && decide (day ≤ monthLength year month)) = true ↔ IsDay year month day
  rw [Bool.and_eq_true, decide_eq_true_iff, decide_eq_true_iff]
  by_cases hmonth : 1 ≤ month ∧ month ≤ 12
  · obtain ⟨hfirst, hlast⟩ := hmonth
    rw [monthLength_eq year hfirst hlast]
    constructor
    · rintro ⟨hday, hlength⟩
      have hleap : month = 2 → day = 29 → HasLeapDay year := by
        rintro rfl rfl
        rw [if_pos rfl] at hlength
        by_contra hcommon
        rw [← isLeapYear_eq_true_iff] at hcommon
        rw [if_neg hcommon] at hlength
        omega
      split_ifs at hlength <;> exact ⟨hfirst, hlast, hday, by omega, by omega, by omega, hleap⟩
    · intro h
      refine ⟨h.one_le_day, ?_⟩
      split_ifs with hfebruary hleap hshort
      · exact h.february hfebruary
      · have hne : day ≠ 29 := fun heq =>
          hleap (isLeapYear_eq_true_iff.mpr (h.leapDay hfebruary heq))
        have hle := h.february hfebruary
        omega
      · exact h.shortMonth hshort
      · exact h.day_le
  · rw [monthLength_eq_zero year hmonth]
    constructor
    · rintro ⟨hday, hlength⟩
      omega
    · intro h
      exact absurd ⟨h.one_le_month, h.month_le⟩ hmonth

end Date

instance (year : Int) (month day : Nat) : Decidable (IsDay year month day) :=
  decidable_of_iff (Date.exists? ⟨year, month, day⟩ = true) Date.exists?_eq_true_iff

/-! ## Counting in months and years -/

theorem daysBeforeMonth_succ (year : Int) {month : Nat} (h : 1 ≤ month) :
    daysBeforeMonth year (month + 1) = daysBeforeMonth year month + monthLength year month := by
  obtain ⟨previous, rfl⟩ := Nat.exists_eq_add_of_le' h
  rfl

theorem daysBeforeMonth_mono (year : Int) {month later : Nat} (h : month ≤ later) :
    daysBeforeMonth year month ≤ daysBeforeMonth year later := by
  induction later, h using Nat.le_induction with
  | base => exact Nat.le_refl _
  | succ later _ ih =>
    cases later with
    | zero => exact ih
    | succ previous =>
      rw [daysBeforeMonth_succ year (Nat.le_add_left 1 previous)]
      exact Nat.le_trans ih (Nat.le_add_right _ _)

/-- From March on the months before one make up stretches of 153 days. -/
theorem daysBeforeMonth_eq {month : Nat} (year : Int) (hfirst : 3 ≤ month) (hlast : month ≤ 12) :
    daysBeforeMonth year month =
      (153 * (month - 3) + 2) / 5 + (if isLeapYear year then 60 else 59) := by
  have hfebruary : monthLength year 2 = if isLeapYear year then 29 else 28 := rfl
  interval_cases month <;> (simp only [daysBeforeMonth, hfebruary]; split <;> rfl)

/-- All months together make 365 days, and one more in a year with a leap day. -/
theorem daysBeforeMonth_thirteen (year : Int) :
    daysBeforeMonth year 13 = if isLeapYear year then 366 else 365 := by
  show 0 + 31 + (if isLeapYear year then 29 else 28) + 31 + 30 + 31 + 30 + 31 + 31 + 30 + 31 + 30
    + 31 = _
  split <;> rfl

/-- A year follows the whole of the one before it. -/
theorem daysBeforeYear_succ (year : Int) :
    daysBeforeYear (year + 1) = daysBeforeYear year + daysBeforeMonth year 13 := by
  rw [daysBeforeMonth_thirteen]
  unfold daysBeforeYear
  have hleap : isLeapYear year = true ↔ 4 ∣ year ∧ (100 ∣ year → 400 ∣ year) :=
    isLeapYear_eq_true_iff
  split_ifs with hyear
  · rw [hleap] at hyear
    omega
  · rw [hleap] at hyear
    omega

theorem daysBeforeYear_mono {year later : Int} (h : year ≤ later) :
    daysBeforeYear year ≤ daysBeforeYear later := by
  unfold daysBeforeYear
  omega

namespace Date

variable {date later : Date}

/-- A date lies before the end of its month. -/
theorem dayNumber_lt_nextMonth (h : date.exists? = true) :
    date.dayNumber < daysBeforeYear date.year + daysBeforeMonth date.year (date.month + 1)
      - daysBeforeEpoch := by
  have hday : date.day ≤ monthLength date.year date.month := by
    rw [exists?, Bool.and_eq_true, decide_eq_true_iff, decide_eq_true_iff] at h
    exact h.2
  have hexists := exists?_eq_true_iff.mp h
  have hone := hexists.one_le_day
  rw [daysBeforeMonth_succ _ hexists.one_le_month]
  unfold dayNumber
  omega

/-- **Later dates have greater numbers.** -/
theorem dayNumber_lt (h : date.exists? = true)
    (hlt : date.year < later.year ∨ date.year = later.year ∧ (date.month < later.month ∨
      date.month = later.month ∧ date.day < later.day)) :
    date.dayNumber < later.dayNumber := by
  have hdate := exists?_eq_true_iff.mp h
  have hend := dayNumber_lt_nextMonth h
  rcases hlt with hyear | ⟨hyear, hmonth | ⟨hmonth, hday⟩⟩
  · -- Between the two lies the end of the earlier year.
    have hmonths : daysBeforeMonth date.year (date.month + 1) ≤ daysBeforeMonth date.year 13 :=
      daysBeforeMonth_mono date.year (Nat.add_le_add_right hdate.month_le 1)
    have hyears : daysBeforeYear (date.year + 1) ≤ daysBeforeYear later.year :=
      daysBeforeYear_mono (Int.add_one_le_iff.mpr hyear)
    rw [daysBeforeYear_succ] at hyears
    unfold dayNumber at hend ⊢
    omega
  · -- Between the two lies the end of the earlier month.
    have hmonths : daysBeforeMonth date.year (date.month + 1) ≤
        daysBeforeMonth date.year later.month :=
      daysBeforeMonth_mono date.year (Nat.succ_le_of_lt hmonth)
    unfold dayNumber at hend ⊢
    rw [← hyear]
    omega
  · have hone := hdate.one_le_day
    unfold dayNumber
    rw [← hyear, ← hmonth]
    omega

/-- **The number of a date is what the formula gives.** -/
theorem dayNumber_eq {year : Int} {month day : Nat} (h : IsDay year month day) :
    (⟨year, month, day⟩ : Date).dayNumber = daysSinceEpoch year month day := by
  have hday := h.one_le_day
  have hleap : isLeapYear year = true ↔ 4 ∣ year ∧ (100 ∣ year → 400 ∣ year) :=
    isLeapYear_eq_true_iff
  show daysBeforeYear year + (daysBeforeMonth year month : Nat) + (day - 1 : Nat) - 719528 = _
  unfold daysBeforeYear daysSinceEpoch daysFromMarch
  by_cases hmonth : month ≤ 2
  · have hfirst := h.one_le_month
    have hbefore : daysBeforeMonth year month = 31 * (month - 1) := by
      interval_cases month <;> rfl
    have hmonths : (153 * (month + 9) + 2) / 5 = 31 * (month - 1) + 306 := by
      interval_cases month <;> rfl
    rw [if_pos hmonth, hbefore, hmonths]
    omega
  · rw [if_neg hmonth, daysBeforeMonth_eq year (Nat.lt_of_not_le hmonth) h.month_le]
    split_ifs with hyear
    · rw [hleap] at hyear
      omega
    · rw [hleap] at hyear
      omega

end Date

example : daysSinceEpoch 1970 1 1 = 0 := by decide

end AccessRights.Calendar
