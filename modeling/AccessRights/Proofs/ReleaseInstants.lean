import AccessRights.Proofs.ReleaseTexts

/-!
# The instants that release dates name

A release date that is written with all its digits names the instant at which a clock in its
zone shows the date and the time.  `ReleaseText.instant` says which one that is by counting: the
days come from the formula `daysSinceEpoch`, and the fraction from the value of its digits.
Neither makes use of how dates are read or how `Date` counts its days.

The leap second is left out here.  Seconds of the day cannot be counted on through it, and
`Instant.ofLocal` has a representation of its own for it.

Bare dates can be put in order without reading them, since all their numbers have one width
(`WrittenDate.text_lt_text_iff`).
-/

namespace AccessRights.Calendar

open FieldReader Timestamp

/-! ## Counting -/

namespace WrittenDate

/-- The number of days since the first of January 1970. -/
def epochDay (date : WrittenDate) : Int :=
  daysSinceEpoch date.year date.month date.day

/-- The number of a possible day is the one that counting from the epoch gives. -/
theorem dayNumber_toDate {date : WrittenDate} (h : date.Possible) :
    date.toDate.dayNumber = date.epochDay :=
  Date.dayNumber_eq h

end WrittenDate

namespace WrittenTime

/-- The clock shows the time on every day, and no digit of the fraction is lost. -/
structure Ordinary (time : WrittenTime) : Prop where
  hour_lt : time.hour < 24
  minute_lt : time.minute < 60
  second_lt : time.second < 60
  fraction_le : time.fraction.length ≤ 9

/-- The seconds since midnight. -/
def secondOfDay (time : WrittenTime) : Nat :=
  time.hour * 3600 + time.minute * 60 + time.second

/-- The nanoseconds that the fraction comes to: the value of its digits, in units of which
one is that of the last digit. -/
def nanos (time : WrittenTime) : Nat :=
  Nat.ofDigits 10 (time.fraction.map Fin.val).reverse * 10 ^ (9 - time.fraction.length)

variable {time : WrittenTime}

theorem Ordinary.possible (h : time.Ordinary) : time.Possible :=
  ⟨h.hour_lt, h.minute_lt, Nat.le_of_lt h.second_lt⟩

/-- A fraction of up to nine digits is read to the nanosecond. -/
theorem nanosOf_fraction (h : time.fraction.length ≤ 9) :
    nanosOf (time.fraction.map Fin.val) = time.nanos := by
  rw [nanosOf_eq h, numberOfDigits_eq_ofDigits]
  rfl

/-- Local time is counted on from midnight, and back to UTC by the offset. -/
theorem ofLocal_eq {date : WrittenDate} (hdate : date.Possible) (htime : time.Ordinary)
    (offset : Int) :
    Instant.ofLocal date.toDate time.toTimeOfDay offset =
      ⟨date.epochDay * 86400 + time.secondOfDay - offset, time.nanos⟩ := by
  have hsecond : time.toTimeOfDay.second ≠ 60 := Nat.ne_of_lt htime.second_lt
  have hcount : date.toDate.dayNumber * 86400 +
      ((time.hour : Int) * 60 + (time.minute : Int)) * 60 + (time.second : Int) - offset =
        date.epochDay * 86400 + time.secondOfDay - offset := by
    rw [WrittenDate.dayNumber_toDate hdate, secondOfDay]
    omega
  rw [Instant.ofLocal, if_neg hsecond]
  exact congr (congrArg Instant.mk hcount) (nanosOf_fraction htime.fraction_le)

end WrittenTime

namespace ReleaseText

/-- The day exists, and the time does on every day. -/
def Ordinary : ReleaseText → Prop
  | zoned date time _ => date.Possible ∧ time.Ordinary
  | joined date time => date.Possible ∧ time.Ordinary
  | spaced date time => date.Possible ∧ time.Ordinary
  | bare date => date.Possible

/-- The instant that the text is meant to name, counted from the start of 1970. -/
def instant : ReleaseText → Instant
  | zoned date time zone =>
    ⟨date.epochDay * 86400 + time.secondOfDay - zone.minutes * 60, time.nanos⟩
  | joined date time => ⟨date.epochDay * 86400 + time.secondOfDay, time.nanos⟩
  | spaced date time => ⟨date.epochDay * 86400 + time.secondOfDay, time.nanos⟩
  | bare date => ⟨date.epochDay * 86400, 0⟩

variable {release : ReleaseText}

theorem Ordinary.possible (h : release.Ordinary) : release.Possible := by
  cases release with
  | zoned date time zone => exact ⟨h.1, h.2.possible⟩
  | joined date time => exact ⟨h.1, h.2.possible⟩
  | spaced date time => exact ⟨h.1, h.2.possible⟩
  | bare date => exact h

/-- **What is computed of an ordinary text is the instant that it means.** -/
theorem named_eq_instant (h : release.Ordinary) : release.named = release.instant := by
  cases release with
  | zoned date time zone => exact time.ofLocal_eq h.1 h.2 _
  | joined date time =>
    rw [named, WrittenTime.ofLocal_eq h.1 h.2, Int.sub_zero]
    rfl
  | spaced date time =>
    rw [named, WrittenTime.ofLocal_eq h.1 h.2, Int.sub_zero]
    rfl
  | bare date =>
    show Instant.mk (date.toDate.dayNumber * 86400 + 0 + 0 - 0) 0 = _
    rw [WrittenDate.dayNumber_toDate h, Int.add_zero, Int.add_zero, Int.sub_zero]
    rfl

/-- **A release date in one of the forms is read as the instant that it is meant to name**,
whatever white space stands around it. -/
theorem parse_eq_instant (h : release.Ordinary) {before after : List Char}
    (hbefore : ∀ c ∈ before, Text.isUnicodeSpace c = true)
    (hafter : ∀ c ∈ after, Text.isUnicodeSpace c = true) :
    ReleaseDate.parse (String.ofList (before ++ release.text ++ after)) = .ok release.instant := by
  rw [parse_text release hbefore hafter, if_pos h.possible, named_eq_instant h]

/-- A bare date is midnight in UTC. -/
theorem parse_bare {date : WrittenDate} (h : date.Possible) :
    ReleaseDate.parse (String.ofList date.text) = .ok ⟨date.epochDay * 86400, 0⟩ := by
  have hnone : ∀ c ∈ ([] : List Char), Text.isUnicodeSpace c = true := fun _ hc => nomatch hc
  have hbare : (bare date).Ordinary := h
  have hparse := parse_eq_instant hbare hnone hnone
  rwa [List.nil_append, List.append_nil] at hparse

end ReleaseText

/-! ## Order -/

/-- Numbers of one width are told by their texts. -/
theorem padded_inj {width m n : Nat} (hwidth : 0 < width) (hm : m < 10 ^ width)
    (hn : n < 10 ^ width) : padded width m = padded width n ↔ m = n := by
  refine ⟨fun heq => ?_, fun heq => heq ▸ rfl⟩
  have hnot : ¬ padded width n < padded width n := List.lt_irrefl _
  have hlower : ¬ m < n := mt (padded_lt_padded_iff hwidth hm hn).mpr (heq ▸ hnot)
  have hupper : ¬ n < m := mt (padded_lt_padded_iff hwidth hn hm).mpr (heq ▸ hnot)
  omega

namespace WrittenDate

variable {date later : WrittenDate}

/-- **Dates are in the order of their texts.** -/
theorem text_lt_text_iff :
    date.text < later.text ↔ date.year < later.year ∨ date.year = later.year ∧
      (date.month < later.month ∨ date.month = later.month ∧ date.day < later.day) := by
  have htwo : 0 < 2 := by decide
  have hfour : 0 < 4 := by decide
  have hyears := (length_padded hfour date.year_lt).trans (length_padded hfour later.year_lt).symm
  have hmonths := (length_padded htwo date.month_lt).trans (length_padded htwo later.month_lt).symm
  rw [text, text, append_lt_append_iff hyears, List.cons_lt_cons_iff, append_lt_append_iff hmonths,
    List.cons_lt_cons_iff, padded_lt_padded_iff hfour date.year_lt later.year_lt,
    padded_lt_padded_iff htwo date.month_lt later.month_lt,
    padded_lt_padded_iff htwo date.day_lt later.day_lt,
    padded_inj hfour date.year_lt later.year_lt, padded_inj htwo date.month_lt later.month_lt]
  simp

/-- Of two days the one whose text comes first is the earlier one. -/
theorem epochDay_lt (hdate : date.Possible) (hlater : later.Possible)
    (h : date.text < later.text) : date.epochDay < later.epochDay := by
  rw [← dayNumber_toDate hdate, ← dayNumber_toDate hlater]
  refine Date.dayNumber_lt (Date.exists?_eq_true_iff.mpr hdate) ?_
  have horder := text_lt_text_iff.mp h
  show (date.year : Int) < later.year ∨ (date.year : Int) = later.year ∧ _
  rw [Int.ofNat_lt, Int.ofNat_inj]
  exact horder

end WrittenDate

/-- **Release dates name the instants that they are meant to name.** -/
theorem ReleaseDate.parse_ordinary :
    (∀ (release : ReleaseText) (before after : List Char), release.Ordinary →
      (∀ c ∈ before, Text.isUnicodeSpace c = true) →
      (∀ c ∈ after, Text.isUnicodeSpace c = true) →
      parse (String.ofList (before ++ release.text ++ after)) = .ok release.instant) ∧
    ∀ date later : WrittenDate, date.Possible → later.Possible →
      String.ofList date.text < String.ofList later.text →
      ∃ instant laterInstant, parse (String.ofList date.text) = .ok instant ∧
        parse (String.ofList later.text) = .ok laterInstant ∧ instant < laterInstant := by
  refine ⟨fun release before after h hbefore hafter =>
    ReleaseText.parse_eq_instant h hbefore hafter, fun date later hdate hlater hlt => ?_⟩
  have htext : date.text < later.text := by
    rwa [String.lt_iff, String.toList_ofList, String.toList_ofList] at hlt
  have hday := WrittenDate.epochDay_lt hdate hlater htext
  refine ⟨_, _, ReleaseText.parse_bare hdate, ReleaseText.parse_bare hlater, .inl ?_⟩
  show date.epochDay * 86400 < later.epochDay * 86400
  omega

/-- The last half second of a leap day, on a clock that is behind UTC, is over in UTC already;
and a year ends before the next one starts. -/
theorem ReleaseDate.parse_ordinary_leapDay :
    let leapDay : WrittenDate := ⟨2024, 2, 29, by decide, by decide, by decide⟩
    let time : WrittenTime := ⟨23, 59, 59, [5], by decide, by decide, by decide⟩
    let release : ReleaseText := .zoned leapDay time (.behind 5 30)
    let lastDay : WrittenDate := ⟨1999, 12, 31, by decide, by decide, by decide⟩
    let firstDay : WrittenDate := ⟨2000, 1, 1, by decide, by decide, by decide⟩
    parse (String.ofList (['\u2003'] ++ release.text ++ ['\n'])) = .ok ⟨1709270999, 500000000⟩ ∧
      ∃ instant laterInstant, parse (String.ofList lastDay.text) = .ok instant ∧
        parse (String.ofList firstDay.text) = .ok laterInstant ∧ instant < laterInstant := by
  intro leapDay time release lastDay firstDay
  have hordinary : release.Ordinary :=
    ⟨(by decide : leapDay.Possible), ⟨by decide, by decide, by decide, by decide⟩⟩
  have hinstant : release.instant = ⟨1709270999, 500000000⟩ := by decide
  exact ⟨hinstant ▸ parse_ordinary.1 release ['\u2003'] ['\n'] hordinary
      (List.forall_mem_singleton.mpr rfl) (List.forall_mem_singleton.mpr rfl),
    parse_ordinary.2 lastDay firstDay (by decide) (by decide) (by decide)⟩

end AccessRights.Calendar
