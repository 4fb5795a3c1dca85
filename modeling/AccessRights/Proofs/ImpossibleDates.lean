import AccessRights.Proofs.Evaluated
import AccessRights.Proofs.ReleaseTexts
import Mathlib.Data.List.Forall2

/-!
# Release dates that do not exist

Texts that have all their digits in the right places are refused exactly if they name no moment,
and always for the same reason.  Such a text is described from the outside here, by a pattern and
by the numbers that stand at fixed places (`NamesMoment`).  `exists_release` connects this with the
written dates and times of `ReleaseText`: every text that fits one of the patterns is one of them,
so that `ReleaseText.parse_text` settles what becomes of it.

That there is no time information is only said of texts without any content: `settle` never gives
this as the reason.
-/

namespace AccessRights.Calendar

open Timestamp

/-! ## Texts of digits -/

/-- The forms of a release date without a fraction.  Each `D` stands for a digit. -/
def digitPatterns : List String :=
  ["DDDD-DD-DD", "DDDD-DD-DDTDD:DD:DD", "DDDD-DD-DDTDD:DD:DDZ", "DDDD-DD-DD DD:DD:DD"]

/-- The text has a digit wherever the pattern has `D`, and is like the pattern otherwise. -/
def Fits (pattern cs : List Char) : Prop :=
  List.Forall₂ (fun expected c => if expected = 'D' then c.isDigit = true else c = expected)
    pattern cs

instance (pattern cs : List Char) : Decidable (Fits pattern cs) :=
  inferInstanceAs (Decidable (List.Forall₂ _ pattern cs))

/-- The number that `count` digits from a place on denote. -/
def numberAt (cs : List Char) (start count : Nat) : Nat :=
  ((cs.drop start).take count).foldl (fun n c => 10 * n + (c.toNat - '0'.toNat)) 0

/-- The numbers at the places of the fields are those of a day of the calendar and a time of day.
A date alone has no number in the places of the time, and these count as zero. -/
structure NamesMoment (cs : List Char) : Prop where
  day : IsDay (numberAt cs 0 4) (numberAt cs 5 2) (numberAt cs 8 2)
  hour_lt : numberAt cs 11 2 < 24
  minute_lt : numberAt cs 14 2 < 60
  /-- A leap second is possible. -/
  second_le : numberAt cs 17 2 ≤ 60

instance (cs : List Char) : Decidable (NamesMoment cs) :=
  decidable_of_iff (IsDay (numberAt cs 0 4) (numberAt cs 5 2) (numberAt cs 8 2) ∧
      numberAt cs 11 2 < 24 ∧ numberAt cs 14 2 < 60 ∧ numberAt cs 17 2 ≤ 60)
    ⟨fun ⟨hday, hhour, hminute, hsecond⟩ => ⟨hday, hhour, hminute, hsecond⟩,
      fun ⟨hday, hhour, hminute, hsecond⟩ => ⟨hday, hhour, hminute, hsecond⟩⟩

section Fields

variable {pattern cs : List Char}

/-- A character of the pattern that stands for itself is the first of the text. -/
theorem Fits.of_cons {expected : Char} (hne : expected ≠ 'D') (h : Fits (expected :: pattern) cs) :
    ∃ rest, cs = expected :: rest ∧ Fits pattern rest := by
  obtain ⟨c, rest, hc, hrest, rfl⟩ := List.forall₂_cons_left_iff.mp h
  rw [if_neg hne] at hc
  exact ⟨rest, hc ▸ rfl, hrest⟩

/-- Places for digits hold digits, and the rest fits the rest of the pattern. -/
theorem Fits.exists_digits {count : Nat} (h : Fits (List.replicate count 'D' ++ pattern) cs) :
    ∃ digits : List (Fin 10), digits.length = count ∧
      ∃ rest, cs = digitText digits ++ rest ∧ Fits pattern rest := by
  induction count generalizing cs with
  | zero => exact ⟨[], rfl, cs, rfl, h⟩
  | succ count ih =>
    obtain ⟨c, more, hc, hmore, rfl⟩ := List.forall₂_cons_left_iff.mp h
    rw [if_pos rfl] at hc
    obtain ⟨digit, rfl⟩ := exists_eq_digitChar hc
    obtain ⟨digits, hlength, rest, rfl, hrest⟩ := ih hmore
    exact ⟨digit :: digits, congrArg Nat.succ hlength, rest, rfl, hrest⟩

/-- Digits are a number in writing. -/
theorem Fits.exists_padded {count : Nat} (hcount : 0 < count)
    (h : Fits (List.replicate count 'D' ++ pattern) cs) :
    ∃ n, n < 10 ^ count ∧ ∃ rest, cs = padded count n ++ rest ∧ Fits pattern rest := by
  obtain ⟨digits, rfl, rest, rfl, hrest⟩ := h.exists_digits
  exact ⟨numberOfDigits digits, numberOfDigits_lt digits, rest,
    congrArg (· ++ rest) (digitText_eq_padded hcount), hrest⟩

/-- A text that starts in the form of a date starts with a written date, possible or not. -/
theorem Fits.exists_date (h : Fits ("DDDD-DD-DD".toList ++ pattern) cs) :
    ∃ (date : WrittenDate) (rest : List Char), cs = date.text ++ rest ∧ Fits pattern rest := by
  have hyear : Fits (List.replicate 4 'D' ++
    '-' :: (List.replicate 2 'D' ++ '-' :: (List.replicate 2 'D' ++ pattern))) cs := h
  obtain ⟨year, hyearLt, _, rfl, hafterYear⟩ := hyear.exists_padded (by decide)
  obtain ⟨_, rfl, hmonth⟩ := hafterYear.of_cons (by decide)
  obtain ⟨month, hmonthLt, _, rfl, hafterMonth⟩ := hmonth.exists_padded (by decide)
  obtain ⟨_, rfl, hday⟩ := hafterMonth.of_cons (by decide)
  obtain ⟨day, hdayLt, rest, rfl, hrest⟩ := hday.exists_padded (by decide)
  refine ⟨⟨year, month, day, hyearLt, hmonthLt, hdayLt⟩, rest, ?_, hrest⟩
  rw [WrittenDate.text_append]

/-- And one in the form of a time with a written time. -/
theorem Fits.exists_time (h : Fits ("DD:DD:DD".toList ++ pattern) cs) :
    ∃ (time : WrittenTime) (rest : List Char), cs = time.text ++ rest ∧ Fits pattern rest := by
  have hhour : Fits (List.replicate 2 'D' ++
    ':' :: (List.replicate 2 'D' ++ ':' :: (List.replicate 2 'D' ++ pattern))) cs := h
  obtain ⟨hour, hhourLt, _, rfl, hafterHour⟩ := hhour.exists_padded (by decide)
  obtain ⟨_, rfl, hminute⟩ := hafterHour.of_cons (by decide)
  obtain ⟨minute, hminuteLt, _, rfl, hafterMinute⟩ := hminute.exists_padded (by decide)
  obtain ⟨_, rfl, hsecond⟩ := hafterMinute.of_cons (by decide)
  obtain ⟨second, hsecondLt, rest, rfl, hrest⟩ := hsecond.exists_padded (by decide)
  refine ⟨⟨hour, minute, second, [], hhourLt, hminuteLt, hsecondLt⟩, rest, ?_, hrest⟩
  rw [WrittenTime.text_append]
  rfl

/-- The two forms with a date and a time have both, and what stands between them. -/
theorem Fits.exists_date_time {separator : Char} (hne : separator ≠ 'D')
    (h : Fits ("DDDD-DD-DD".toList ++ separator :: ("DD:DD:DD".toList ++ pattern)) cs) :
    ∃ (date : WrittenDate) (time : WrittenTime) (rest : List Char),
      cs = date.text ++ separator :: (time.text ++ rest) ∧ Fits pattern rest := by
  obtain ⟨date, _, rfl, hseparator⟩ := h.exists_date
  obtain ⟨_, rfl, htime⟩ := hseparator.of_cons hne
  obtain ⟨time, rest, rfl, hrest⟩ := htime.exists_time
  exact ⟨date, time, rest, rfl, hrest⟩

end Fields

/-! ## Numbers at their places -/

/-- Digits that are read one by one make up their number. -/
theorem foldl_digitText (digits : List (Fin 10)) :
    (digitText digits).foldl (fun n c => 10 * n + (c.toNat - '0'.toNat)) 0 =
      numberOfDigits digits := by
  have hvalue : ∀ digit : Fin 10, (Nat.digitChar digit).toNat - '0'.toNat = digit.val := by decide
  rw [digitText, List.foldl_map, numberOfDigits, FieldReader.numberOf, List.foldl_map]
  simp only [hvalue]

/-- A number that is written with leading zeros is found at its place. -/
theorem numberAt_padded {width n : Nat} (hwidth : 0 < width) (h : n < 10 ^ width)
    (rest : List Char) : numberAt (padded width n ++ rest) 0 width = n := by
  rw [numberAt, List.drop_zero, List.take_left' (length_padded hwidth h), padded_eq hwidth h,
    foldl_digitText, numberOfDigits_lastDigits h]

/-- Places are counted from the start of the text. -/
theorem numberAt_append {front : List Char} {size : Nat} (hfront : front.length = size)
    (cs : List Char) (start count : Nat) :
    numberAt (front ++ cs) (size + start) count = numberAt cs start count := by
  subst hfront
  rw [numberAt, List.drop_length_add_append]
  rfl

/-- Places are counted from the start of the text. -/
theorem numberAt_cons (c : Char) (cs : List Char) (start count : Nat) :
    numberAt (c :: cs) (start + 1) count = numberAt cs start count :=
  rfl

namespace WrittenDate

variable (date : WrittenDate) (rest : List Char)

theorem length_text : date.text.length = 10 := by
  rw [text, List.length_append, List.length_cons, List.length_append, List.length_cons,
    length_padded (by decide) date.year_lt, length_padded (by decide) date.month_lt,
    length_padded (by decide) date.day_lt]

/-- The numbers at the places of a date name a day exactly if the written date is possible. -/
theorem isDay_iff : IsDay (numberAt (date.text ++ rest) 0 4) (numberAt (date.text ++ rest) 5 2)
    (numberAt (date.text ++ rest) 8 2) ↔ date.Possible := by
  have hyear : numberAt (date.text ++ rest) 0 4 = date.year := by
    rw [text_append]
    exact numberAt_padded (by decide) date.year_lt _
  have hmonth : numberAt (date.text ++ rest) 5 2 = date.month := by
    rw [text_append, numberAt_append (length_padded (by decide) date.year_lt) _ 1, numberAt_cons,
      numberAt_padded (by decide) date.month_lt]
  have hday : numberAt (date.text ++ rest) 8 2 = date.day := by
    rw [text_append, numberAt_append (length_padded (by decide) date.year_lt) _ 4, numberAt_cons,
      numberAt_append (length_padded (by decide) date.month_lt) _ 1, numberAt_cons,
      numberAt_padded (by decide) date.day_lt]
  rw [hyear, hmonth, hday]
  rfl

end WrittenDate

namespace WrittenTime

variable (time : WrittenTime) (rest : List Char)

/-- The hour stands first in a time. -/
theorem numberAt_hour : numberAt (time.text ++ rest) 0 2 = time.hour := by
  rw [text_append]
  exact numberAt_padded (by decide) time.hour_lt _

/-- The minute stands behind the first colon. -/
theorem numberAt_minute : numberAt (time.text ++ rest) 3 2 = time.minute := by
  rw [text_append, numberAt_append (length_padded (by decide) time.hour_lt) _ 1, numberAt_cons,
    numberAt_padded (by decide) time.minute_lt]

/-- The second stands behind the other one. -/
theorem numberAt_second : numberAt (time.text ++ rest) 6 2 = time.second := by
  rw [text_append, numberAt_append (length_padded (by decide) time.hour_lt) _ 4, numberAt_cons,
    numberAt_append (length_padded (by decide) time.minute_lt) _ 1, numberAt_cons,
    numberAt_padded (by decide) time.second_lt]

end WrittenTime

section Moments

variable (date : WrittenDate) (time : WrittenTime)

/-- **A bare date names a moment exactly if the calendar has the day.** -/
theorem namesMoment_date_iff : NamesMoment date.text ↔ date.Possible := by
  have hnone : ∀ start, numberAt date.text (10 + start) 2 = 0 := fun start => by
    rw [numberAt, List.drop_eq_nil_of_le (by rw [date.length_text]; exact Nat.le_add_right _ _)]
    rfl
  have hday := date.isDay_iff []
  rw [List.append_nil] at hday
  refine ⟨fun h => hday.mp h.day, fun h => ⟨hday.mpr h, ?_, ?_, ?_⟩⟩
  · rw [hnone 1]
    decide
  · rw [hnone 4]
    decide
  · rw [hnone 7]
    decide

/-- **A date with a time names one exactly if both are possible**, whatever the zone. -/
theorem namesMoment_date_time_iff (separator : Char) (rest : List Char) :
    NamesMoment (date.text ++ separator :: (time.text ++ rest)) ↔
      date.Possible ∧ time.Possible := by
  have hplace : ∀ start, numberAt (date.text ++ separator :: (time.text ++ rest))
      (10 + (start + 1)) 2 = numberAt (time.text ++ rest) start 2 := fun start => by
    rw [numberAt_append date.length_text, numberAt_cons]
  have hhour := (hplace 0).trans (time.numberAt_hour rest)
  have hminute := (hplace 3).trans (time.numberAt_minute rest)
  have hsecond := (hplace 6).trans (time.numberAt_second rest)
  have hday := date.isDay_iff (separator :: (time.text ++ rest))
  constructor
  · rintro ⟨hdate, hhourLt, hminuteLt, hsecondLe⟩
    exact ⟨hday.mp hdate, hhour ▸ hhourLt, hminute ▸ hminuteLt, hsecond ▸ hsecondLe⟩
  · rintro ⟨hdate, hhourLt, hminuteLt, hsecondLe⟩
    exact ⟨hday.mpr hdate, hhour ▸ hhourLt, hminute ▸ hminuteLt, hsecond ▸ hsecondLe⟩

end Moments

/-- **A text that fits one of the patterns is a release date in writing**, of which the calendar
and the clock decide whether it names a moment. -/
theorem exists_release {pattern : String} {cs : List Char} (hpattern : pattern ∈ digitPatterns)
    (hfits : Fits pattern.toList cs) :
    ∃ release : ReleaseText, cs = release.text ∧ (release.Possible ↔ NamesMoment cs) := by
  simp only [digitPatterns, List.mem_cons, List.not_mem_nil, or_false] at hpattern
  rcases hpattern with rfl | rfl | rfl | rfl
  · have hdate : Fits ("DDDD-DD-DD".toList ++ []) cs := hfits
    obtain ⟨date, rest, rfl, hrest⟩ := hdate.exists_date
    obtain rfl := List.forall₂_nil_left_iff.mp hrest
    rw [List.append_nil]
    exact ⟨.bare date, rfl, (namesMoment_date_iff date).symm⟩
  · have hboth : Fits ("DDDD-DD-DD".toList ++ 'T' :: ("DD:DD:DD".toList ++ [])) cs := hfits
    obtain ⟨date, time, rest, rfl, hrest⟩ := hboth.exists_date_time (by decide)
    obtain rfl := List.forall₂_nil_left_iff.mp hrest
    exact ⟨.joined date time, by rw [List.append_nil]; rfl,
      (namesMoment_date_time_iff date time 'T' []).symm⟩
  · have hall : Fits ("DDDD-DD-DD".toList ++ 'T' :: ("DD:DD:DD".toList ++ ['Z'])) cs := hfits
    obtain ⟨date, time, _, rfl, hzone⟩ := hall.exists_date_time (by decide)
    obtain ⟨rest, rfl, hrest⟩ := hzone.of_cons (by decide)
    obtain rfl := List.forall₂_nil_left_iff.mp hrest
    exact ⟨.zoned date time .utc, rfl, (namesMoment_date_time_iff date time 'T' ['Z']).symm⟩
  · have hboth : Fits ("DDDD-DD-DD".toList ++ ' ' :: ("DD:DD:DD".toList ++ [])) cs := hfits
    obtain ⟨date, time, rest, rfl, hrest⟩ := hboth.exists_date_time (by decide)
    obtain rfl := List.forall₂_nil_left_iff.mp hrest
    exact ⟨.spaced date time, by rw [List.append_nil]; rfl,
      (namesMoment_date_time_iff date time ' ' []).symm⟩

/-! ## Refusals -/

/-- That a text says nothing on time is not found out by any of the readers. -/
theorem ReleaseDate.settle_ne_noTimeInformation (results : List (Except Failure Instant)) :
    ReleaseDate.settle results ≠ .error .noTimeInformation := by
  unfold ReleaseDate.settle
  split
  · exact fun h => nomatch h
  · split <;> exact fun h => nomatch h

/-- **It is found of blank texts, and of no others.** -/
theorem ReleaseDate.parse_eq_noTimeInformation_iff {text : String} :
    ReleaseDate.parse text = .error .noTimeInformation ↔
      ∀ c ∈ text.toList, Text.isUnicodeSpace c = true := by
  rw [← trim_eq_nil_iff, ReleaseDate.parse]
  show (if (Text.trim text.toList).isEmpty then _ else _) = _ ↔ _
  split_ifs with hempty
  · exact iff_of_true rfl (List.isEmpty_iff.mp hempty)
  · exact iff_of_false (ReleaseDate.settle_ne_noTimeInformation _) (mt List.isEmpty_iff.mpr hempty)

end AccessRights.Calendar

namespace AccessRights

open Calendar

/-- **Only a text without content has no time information.** -/
theorem readRelease_eq_noTimeInformation_iff {text value : String} :
    readRelease (some text) = .error (.releaseDate value .noTimeInformation) ↔
      value = text ∧ ∀ c ∈ text.toList, Text.isUnicodeSpace c = true := by
  rw [← ReleaseDate.parse_eq_noTimeInformation_iff]
  cases hparse : ReleaseDate.parse text with
  | ok instant =>
    rw [readRelease_of_ok hparse]
    exact iff_of_false (fun h => nomatch h) fun h => nomatch h.2
  | error problem =>
    rw [readRelease_of_error hparse, Except.error.injEq, Except.error.injEq,
      Fault.releaseDate.injEq]
    exact and_congr_left' eq_comm

/-- **Dates that do not exist are refused as such**: a text whose digits are all in their places
names an instant exactly if it names a moment, and the refusal otherwise keeps the text as it is.
That there is no time information is said of texts without content only. -/
theorem readRelease_of_digits :
    (∀ pattern ∈ digitPatterns, ∀ core before after : List Char, Fits pattern.toList core →
      (∀ c ∈ before, Text.isUnicodeSpace c = true) →
      (∀ c ∈ after, Text.isUnicodeSpace c = true) →
      ((∃ instant, readRelease (some (String.ofList (before ++ core ++ after))) =
        .ok (some instant)) ↔ NamesMoment core) ∧
      (¬ NamesMoment core →
        readRelease (some (String.ofList (before ++ core ++ after))) =
          .error (.releaseDate (String.ofList (before ++ core ++ after)) .outOfRange))) ∧
    ∀ text value : String,
      readRelease (some text) = .error (.releaseDate value .noTimeInformation) ↔
        value = text ∧ ∀ c ∈ text.toList, Text.isUnicodeSpace c = true := by
  refine ⟨fun pattern hpattern core before after hfits hbefore hafter => ?_,
    fun text value => readRelease_eq_noTimeInformation_iff⟩
  obtain ⟨release, rfl, hmoment⟩ := exists_release hpattern hfits
  have hparse := release.parse_text hbefore hafter
  rw [← hmoment]
  split_ifs at hparse with hpossible
  · have hread := readRelease_of_ok hparse
    exact ⟨iff_of_true ⟨_, hread⟩ hpossible, fun h => absurd hpossible h⟩
  · have hread := readRelease_of_error hparse
    refine ⟨iff_of_false ?_ hpossible, fun _ => hread⟩
    rintro ⟨instant, h⟩
    rw [hread] at h
    cases h

/-- The year 1900 has no leap day; a leap second is a moment. -/
theorem readRelease_of_digits_leap :
    let leapDay := "1900-02-29 00:00:00".toList
    let leapSecond := "2016-12-31T23:59:60Z".toList
    readRelease (some (String.ofList ([' '] ++ leapDay ++ []))) =
        .error (.releaseDate (String.ofList ([' '] ++ leapDay ++ [])) .outOfRange) ∧
      ∃ instant, readRelease (some (String.ofList ([] ++ leapSecond ++ ['\n']))) =
        .ok (some instant) := by
  intro leapDay leapSecond
  have hrefused := readRelease_of_digits.1 "DDDD-DD-DD DD:DD:DD" (by decide) leapDay [' '] []
    (by decide) (List.forall_mem_singleton.mpr rfl) (List.forall_mem_nil _)
  have hread := readRelease_of_digits.1 "DDDD-DD-DDTDD:DD:DDZ" (by decide) leapSecond [] ['\n']
    (by decide) (List.forall_mem_nil _) (List.forall_mem_singleton.mpr rfl)
  exact ⟨hrefused.2 (by decide), hread.1.mpr (by decide)⟩

end AccessRights
