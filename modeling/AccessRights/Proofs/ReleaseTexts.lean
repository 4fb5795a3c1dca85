import AccessRights.Proofs.WrittenDates
import Mathlib.Data.List.DropRight
import Mathlib.Data.List.TakeWhile

/-!
# The four forms of a release date

Which of the attempts takes a release date that is written with all its digits, and what
comes out if none does.  Each form is meant for one of the attempts.  The others have to fail on
it, and for most of them it is the form that is to blame: there is no offset where one has to be,
something else than the separator, or text left at the end.  The exception is a day or a time
that does not exist.  Every attempt fails then, and `settle_attempts` says that one of them always
gives the range as its reason, because some attempt gets as far as the number that is wrong.
-/

namespace AccessRights.Calendar

open FieldReader Timestamp

/-- A release date in one of the four forms. -/
inductive ReleaseText
  /-- As in `2030-04-05T06:07:08.5+02:00`. -/
  | zoned (date : WrittenDate) (time : WrittenTime) (zone : Zone)
  /-- As in `2030-04-05T06:07:08.5`. -/
  | joined (date : WrittenDate) (time : WrittenTime)
  /-- As in `2030-04-05 06:07:08.5`. -/
  | spaced (date : WrittenDate) (time : WrittenTime)
  /-- As in `2030-04-05`. -/
  | bare (date : WrittenDate)

namespace ReleaseText

/-- The text without white space around it. -/
def text : ReleaseText → List Char
  | zoned date time zone => date.text ++ 'T' :: (time.text ++ zone.text)
  | joined date time => date.text ++ 'T' :: time.text
  | spaced date time => date.text ++ ' ' :: time.text
  | bare date => date.text

/-- The calendar has the day, and the clock shows the time. -/
def Possible : ReleaseText → Prop
  | zoned date time _ => date.Possible ∧ time.Possible
  | joined date time => date.Possible ∧ time.Possible
  | spaced date time => date.Possible ∧ time.Possible
  | bare date => date.Possible

instance (release : ReleaseText) : Decidable release.Possible :=
  match release with
  | zoned .. => inferInstanceAs (Decidable (_ ∧ _))
  | joined .. => inferInstanceAs (Decidable (_ ∧ _))
  | spaced .. => inferInstanceAs (Decidable (_ ∧ _))
  | bare date => inferInstanceAs (Decidable date.Possible)

/-- The instant at which the clock shows the date and the time. -/
def named : ReleaseText → Instant
  | zoned date time zone => .ofLocal date.toDate time.toTimeOfDay (zone.minutes * 60)
  | joined date time => .ofLocal date.toDate time.toTimeOfDay 0
  | spaced date time => .ofLocal date.toDate time.toTimeOfDay 0
  | bare date => .ofLocal date.toDate .midnight 0

end ReleaseText

/-! ## Settling -/

/-- An attempt did not succeed. -/
def Fails {α : Type} (result : Except Failure α) : Prop :=
  ∃ failure, result = .error failure

/-- A reader that fails unless something holds, and then too, fails. -/
theorem Fails.of_ite {α : Type} {result value : Except Failure α} {failure : Failure}
    {condition : Prop} [Decidable condition]
    (h : result = if condition then value else .error failure) (hvalue : condition → Fails value) :
    Fails result := by
  split_ifs at h with hcondition
  · exact h ▸ hvalue hcondition
  · exact ⟨failure, h⟩

theorem Fails.of_eq {α : Type} {result : Except Failure α} {failure : Failure}
    (h : result = .error failure) : Fails result :=
  ⟨failure, h⟩

namespace ReleaseDate

variable {results : List (Except Failure Instant)}

/-- Where all readers fail, one that finds a number out of range is what is reported. -/
theorem settle_of_outOfRange (hfail : ∀ result ∈ results, Fails result)
    (hmem : .error .outOfRange ∈ results) : settle results = .error .outOfRange := by
  have hnone : results.findSome? Except.toOption = none := by
    rw [List.findSome?_eq_none_iff]
    intro result hresult
    obtain ⟨failure, rfl⟩ := hfail result hresult
    rfl
  have hany : results.any wasOutOfRange = true :=
    List.any_eq_true.mpr ⟨_, hmem, rfl⟩
  rw [settle, hnone, if_pos hany]

end ReleaseDate

section Attempts

variable (date : WrittenDate) (time : WrittenTime)

/-- A value under a condition stays so when what is left of the text is forgotten. -/
theorem read_of_ite {α : Type} {reader : FieldReader α} {cs rest : List Char} {a : α}
    {condition : Prop} [Decidable condition] {failure : Failure}
    (h : reader cs = if condition then .ok (a, rest) else .error failure) :
    reader.read cs = if condition then .ok a else .error failure := by
  rw [FieldReader.read, h]
  split_ifs <;> rfl

theorem Fails.read {α : Type} {reader : FieldReader α} {cs : List Char}
    (h : Fails (reader cs)) : Fails (reader.read cs) := by
  obtain ⟨failure, hfailure⟩ := h
  rw [FieldReader.read, hfailure]
  exact .of_eq rfl

/-! ## Timestamps -/

/-- What is left to do after the date and the time of a timestamp. -/
def Timestamp.offsetAndEnd (date : Date) (time : TimeOfDay) : FieldReader Instant := do
  let offset ← offset
  finish
  within (-1440 < offset && offset < 1440)
  pure (.ofLocal date time (offset * 60))

/-- **The strict reader takes a possible date and a possible time**, and goes on with the offset.
-/
theorem Timestamp.instant_text {c : Char} (hc : c = 'T' ∨ c = ' ') {rest : List Char}
    (hrest : EndsNumber rest) :
    Timestamp.instant (date.text ++ c :: (time.text ++ rest)) =
      if date.Possible ∧ time.Possible then
        Timestamp.offsetAndEnd date.toDate time.toTimeOfDay rest
      else .error .outOfRange := by
  have hseparator : (oneOf fun c => c == 'T' || c == 't' || c == ' ')
      (c :: (time.text ++ rest)) = .ok ((), time.text ++ rest) := by
    rcases hc with rfl | rfl <;> rfl
  rw [Timestamp.instant, bind_of_ite (date.read_text _), bind_of_ok hseparator,
    bind_of_ite (time.read_text hrest), ← ite_and]
  rfl

/-- A written date takes ten bytes. -/
theorem WrittenDate.utf8Length_text : Text.utf8Length date.text = 10 := by
  rw [WrittenDate.text, padded_eq (by decide) date.year_lt, padded_eq (by decide) date.month_lt,
    padded_eq (by decide) date.day_lt]
  simp only [Text.utf8Length_append, Text.utf8Length_cons, utf8Length_digitText, length_lastDigits]
  rfl

/-- A written time takes eight bytes at least, so that with a date it is no bare date. -/
theorem WrittenTime.le_utf8Length_text : 8 ≤ Text.utf8Length time.text := by
  rw [WrittenTime.text, padded_eq (by decide) time.hour_lt, padded_eq (by decide) time.minute_lt,
    padded_eq (by decide) time.second_lt]
  simp only [Text.utf8Length_append, Text.utf8Length_cons, utf8Length_digitText, length_lastDigits]
  have hcolon : ':'.utf8Size = 1 := rfl
  omega

/-- A date and a time are long enough for a timestamp. -/
theorem Timestamp.parse_text {c : Char} (rest : List Char) :
    Timestamp.parse (date.text ++ c :: (time.text ++ rest)) =
      Timestamp.instant.read (date.text ++ c :: (time.text ++ rest)) := by
  have hsize := c.utf8Size_pos
  have htime := time.le_utf8Length_text
  rw [Timestamp.parse, if_neg]
  rw [Text.utf8Length_append, Text.utf8Length_cons, Text.utf8Length_append, date.utf8Length_text,
    Timestamp.leastLength]
  omega

/-! ## Lenient attempts -/

namespace ReleaseDate

/-- Of the days with a year of four digits all are supported that are days at all. -/
theorem isSupported_iff : isSupported date.toDate = true ↔ date.Possible := by
  have hyear : date.toDate.year = (date.year : Int) := rfl
  have hlt := date.year_lt
  rw [isSupported, Bool.and_eq_true, Bool.and_eq_true, decide_eq_true_iff, decide_eq_true_iff,
    Date.exists?_eq_true_iff, hyear]
  exact and_iff_right ⟨by omega, by omega⟩

/-- At the end of the text the instant is made, if there is such a day. -/
theorem conclude_nil (timeOfDay : TimeOfDay) :
    conclude date.toDate timeOfDay [] =
      if date.Possible then .ok (.ofLocal date.toDate timeOfDay 0, [])
      else .error .outOfRange := by
  rw [conclude, bind_of_ok (finish_eq []), bind_of_ite (within_eq _ _)]
  exact if_congr (isSupported_iff date) rfl rfl

/-- Once the separator has been read, ranges alone decide up to the end of the time. -/
theorem laxDateTime_text {separator : FieldReader Unit} {after rest : List Char}
    (hseparator : separator after = .ok ((), time.text ++ rest)) (hrest : EndsNumber rest) :
    laxDateTime separator (date.text ++ after) =
      if date.InRange ∧ time.Possible then conclude date.toDate time.toTimeOfDay rest
      else .error .outOfRange := by
  rw [laxDateTime, bind_of_ite (date.laxDate_text _), bind_of_ok hseparator,
    bind_of_ite (time.laxTime_text hrest), ← ite_and]

/-- The tolerant reader of bare dates makes the instant of what it reads at midnight. -/
theorem laxDateOnly_text (after : List Char) :
    laxDateOnly (date.text ++ after) =
      if date.InRange then conclude date.toDate .midnight after else .error .outOfRange := by
  rw [laxDateOnly, bind_of_ite (date.laxDate_text _)]

/-- The month is long enough only if it is one that exists. -/
theorem laxDateTime_eq {separator : FieldReader Unit} {after : List Char}
    (hseparator : separator after = .ok ((), time.text)) :
    laxDateTime separator (date.text ++ after) =
      if date.Possible ∧ time.Possible then .ok (.ofLocal date.toDate time.toTimeOfDay 0, [])
      else .error .outOfRange := by
  have hend : EndsNumber [] := fun c hc => nomatch hc
  have hrange : (date.InRange ∧ time.Possible) ∧ date.Possible ↔ date.Possible ∧ time.Possible :=
    ⟨fun h => ⟨h.2, h.1.2⟩, fun h => ⟨⟨h.1.inRange, h.2⟩, h.1⟩⟩
  have htime : time.text = time.text ++ [] := (List.append_nil _).symm
  rw [laxDateTime_text date time (hseparator.trans (htime ▸ rfl)) hend, conclude_nil, ← ite_and]
  exact if_congr hrange rfl rfl

/-- **It takes a bare date exactly if the calendar has the day.** -/
theorem laxDateOnly_eq :
    laxDateOnly date.text =
      if date.Possible then .ok (.ofLocal date.toDate .midnight 0, [])
      else .error .outOfRange := by
  have hrange : date.InRange ∧ date.Possible ↔ date.Possible :=
    and_iff_right_of_imp fun h => h.inRange
  have hread := laxDateOnly_text date []
  rw [List.append_nil, conclude_nil, ← ite_and] at hread
  exact hread.trans (if_congr hrange rfl rfl)

/-! ### Attempts at other forms -/

/-- Text is left at the end. -/
theorem conclude_cons_fails (timeOfDay : TimeOfDay) (c : Char) (after : List Char) :
    Fails (conclude date.toDate timeOfDay (c :: after)) :=
  .of_eq rfl

/-- It takes nothing behind the date. -/
theorem laxDateOnly_fails (c : Char) (after : List Char) :
    Fails (laxDateOnly (date.text ++ c :: after)) :=
  .of_ite (laxDateOnly_text date _) fun _ => conclude_cons_fails date _ c after

/-- What follows the date is not a separator with a digit behind it. -/
theorem laxDateTime_fails {separator : FieldReader Unit} {after : List Char}
    (h : Fails ((separator >>= fun _ => laxTime) after)) :
    Fails (laxDateTime separator (date.text ++ after)) := by
  obtain ⟨failure, hfailure⟩ := h
  have hread : laxDateTime separator (date.text ++ after) =
      if date.InRange then .error failure else .error .outOfRange := by
    rw [laxDateTime, bind_of_ite (date.laxDate_text _), ← bind_assoc, bind_of_error hfailure]
  exact .of_ite hread fun _ => .of_eq rfl

end ReleaseDate

end Attempts

/-! ## What comes out -/

namespace ReleaseText

open ReleaseDate

section Forms

variable (date : WrittenDate) (time : WrittenTime) (zone : Zone)

/-- A timestamp is taken by the first attempt. -/
theorem timestamp_zoned :
    Timestamp.parse (zoned date time zone).text =
      if (zoned date time zone).Possible then .ok (zoned date time zone).named
      else .error .outOfRange := by
  have hoffset : Timestamp.offsetAndEnd date.toDate time.toTimeOfDay zone.text =
      .ok ((zoned date time zone).named, []) := by
    have hwithin : (-1440 < zone.minutes && zone.minutes < 1440) = true := by
      rw [Bool.and_eq_true, decide_eq_true_iff, decide_eq_true_iff]
      exact zone.minutes_lt
    rw [Timestamp.offsetAndEnd, bind_of_ok zone.offset_text, bind_of_ok (finish_eq []),
      bind_of_ok ((within_eq _ _).trans (if_pos hwithin))]
    rfl
  rw [text, Timestamp.parse_text]
  apply read_of_ite
  rw [Timestamp.instant_text date time (.inl rfl) zone.endsNumber_text, hoffset]
  rfl

/-- A date and a time without an offset are refused by the first attempt, which reports their
ranges all the same. -/
theorem timestamp_unzoned {c : Char} (hc : c = 'T' ∨ c = ' ') :
    Timestamp.parse (date.text ++ c :: time.text) =
      if date.Possible ∧ time.Possible then .error .otherForm else .error .outOfRange := by
  have hend : EndsNumber [] := fun c hc => nomatch hc
  have hread := Timestamp.instant_text date time hc hend
  have hparse := Timestamp.parse_text date time (c := c) []
  rw [List.append_nil] at hread hparse
  rw [hparse, FieldReader.read, hread]
  split_ifs <;> rfl

/-- A bare date is no timestamp. -/
theorem timestamp_bare : Timestamp.parse date.text = .error .otherForm := by
  rw [Timestamp.parse, date.utf8Length_text]
  rfl

/-- The second attempt reads the time of a timestamp, and then finds text after it. -/
theorem joined_fails_zoned :
    Fails ((laxDateTime (oneOf (· == 'T'))).read (zoned date time zone).text) := by
  have hseparator : oneOf (· == 'T') ('T' :: (time.text ++ zone.text)) =
      .ok ((), time.text ++ zone.text) := rfl
  refine .read (.of_ite (laxDateTime_text date time hseparator zone.endsNumber_text) fun _ => ?_)
  cases zone <;> exact conclude_cons_fails date _ _ _

/-- **A text with a zone is settled by the reader of timestamps.** -/
theorem settle_zoned :
    settle (attempts (zoned date time zone).text) =
      if (zoned date time zone).Possible then .ok (zoned date time zone).named
      else .error .outOfRange := by
  have hspaced : Fails ((laxDateTime skipSpace).read (zoned date time zone).text) :=
    .read (laxDateTime_fails date (.of_eq rfl))
  have hbare : Fails (laxDateOnly.read (zoned date time zone).text) :=
    .read (laxDateOnly_fails date _ _)
  rw [attempts, timestamp_zoned]
  split_ifs
  · rfl
  · refine settle_of_outOfRange ?_ List.mem_cons_self
    simp [Fails.of_eq, joined_fails_zoned, hspaced, hbare]

/-- **One with a `T` is settled by the tolerant reader of that form.** -/
theorem settle_joined :
    settle (attempts (joined date time).text) =
      if (joined date time).Possible then .ok (joined date time).named
      else .error .outOfRange := by
  have htimestamp : Timestamp.parse (joined date time).text =
      if (joined date time).Possible then .error .otherForm else .error .outOfRange :=
    timestamp_unzoned date time (.inl rfl)
  have hjoined : (laxDateTime (oneOf (· == 'T'))).read (joined date time).text =
      if (joined date time).Possible then .ok (joined date time).named else .error .outOfRange :=
    read_of_ite (laxDateTime_eq date time rfl)
  have hspaced : Fails ((laxDateTime skipSpace).read (joined date time).text) :=
    .read (laxDateTime_fails date (.of_eq rfl))
  have hbare : Fails (laxDateOnly.read (joined date time).text) :=
    .read (laxDateOnly_fails date _ _)
  rw [attempts, htimestamp, hjoined]
  split_ifs
  · rfl
  · refine settle_of_outOfRange ?_ List.mem_cons_self
    simp [Fails.of_eq, hspaced, hbare]

/-- **One with a space by the reader of the other form.** -/
theorem settle_spaced :
    settle (attempts (spaced date time).text) =
      if (spaced date time).Possible then .ok (spaced date time).named
      else .error .outOfRange := by
  have htimestamp : Timestamp.parse (spaced date time).text =
      if (spaced date time).Possible then .error .otherForm else .error .outOfRange :=
    timestamp_unzoned date time (.inr rfl)
  have hjoined : Fails ((laxDateTime (oneOf (· == 'T'))).read (spaced date time).text) :=
    .read (laxDateTime_fails date (.of_eq rfl))
  have hspaced : (laxDateTime skipSpace).read (spaced date time).text =
      if (spaced date time).Possible then .ok (spaced date time).named else .error .outOfRange := by
    -- Only the separator is skipped, since a number has no white space in front.
    have hskip : skipSpace (' ' :: time.text) = .ok ((), time.text) :=
      skipSpace_padded _ (by decide) time.hour_lt
    exact read_of_ite (laxDateTime_eq date time hskip)
  have hbare : Fails (laxDateOnly.read (spaced date time).text) :=
    .read (laxDateOnly_fails date _ _)
  obtain ⟨failure, hjoined⟩ := hjoined
  rw [attempts, htimestamp, hjoined, hspaced]
  split_ifs
  · rfl
  · refine settle_of_outOfRange ?_ List.mem_cons_self
    simp [Fails.of_eq, hbare]

/-- **A bare date is settled by the last of the readers.** -/
theorem settle_bare :
    settle (attempts (bare date).text) =
      if (bare date).Possible then .ok (bare date).named else .error .outOfRange := by
  have htext : (bare date).text = date.text ++ [] := (List.append_nil _).symm
  have htimestamp : Timestamp.parse (bare date).text = .error .otherForm := timestamp_bare date
  have hjoined : Fails ((laxDateTime (oneOf (· == 'T'))).read (bare date).text) :=
    htext ▸ .read (laxDateTime_fails date (.of_eq rfl))
  have hspaced : Fails ((laxDateTime skipSpace).read (bare date).text) :=
    htext ▸ .read (laxDateTime_fails date (.of_eq rfl))
  have hbare : laxDateOnly.read (bare date).text =
      if (bare date).Possible then .ok (bare date).named else .error .outOfRange :=
    read_of_ite (laxDateOnly_eq date)
  obtain ⟨failure, hjoined⟩ := hjoined
  obtain ⟨failure', hspaced⟩ := hspaced
  rw [attempts, htimestamp, hjoined, hspaced, hbare]
  split_ifs
  · rfl
  · refine settle_of_outOfRange ?_ (by simp)
    simp [Fails.of_eq]

end Forms

/-- **What the attempts at a release date in one of the forms come to.** -/
theorem settle_attempts (release : ReleaseText) :
    settle (attempts release.text) =
      if release.Possible then .ok release.named else .error .outOfRange := by
  cases release with
  | zoned date time zone => exact settle_zoned date time zone
  | joined date time => exact settle_joined date time
  | spaced date time => exact settle_spaced date time
  | bare date => exact settle_bare date

end ReleaseText

/-! ## White space around a text -/

/-- The text begins and ends with characters that are not white space. -/
structure Solid (cs : List Char) : Prop where
  first : ∃ c, cs.head? = some c ∧ Text.isUnicodeSpace c = false
  last : ∃ c, cs.getLast? = some c ∧ Text.isUnicodeSpace c = false

/-- Nothing is left exactly of white space. -/
theorem trim_eq_nil_iff {cs : List Char} :
    Text.trim cs = [] ↔ ∀ c ∈ cs, Text.isUnicodeSpace c = true := by
  show (cs.dropWhile Text.isUnicodeSpace).rdropWhile Text.isUnicodeSpace = [] ↔ _
  rw [List.rdropWhile_eq_nil_iff]
  constructor
  · intro h c hc
    rw [← List.takeWhile_append_dropWhile (p := Text.isUnicodeSpace) (l := cs),
      List.mem_append] at hc
    exact hc.elim List.mem_takeWhile_imp (h c)
  · intro h c hc
    exact h c ((List.dropWhile_suffix Text.isUnicodeSpace).mem hc)

/-- White space around a text that starts and ends with something else is all that is trimmed. -/
theorem trim_append {before core after : List Char} (hcore : Solid core)
    (hbefore : ∀ c ∈ before, Text.isUnicodeSpace c = true)
    (hafter : ∀ c ∈ after, Text.isUnicodeSpace c = true) :
    Text.trim (before ++ core ++ after) = core := by
  obtain ⟨⟨first, hfirst, hfirstSolid⟩, ⟨last, hlast, hlastSolid⟩⟩ := hcore
  have hdrop : (core ++ after).dropWhile Text.isUnicodeSpace = core ++ after := by
    obtain ⟨rest, rfl⟩ := List.head?_eq_some_iff.mp hfirst
    rw [List.cons_append, List.dropWhile_cons, hfirstSolid]
    rfl
  have hdropLast : core.reverse.dropWhile Text.isUnicodeSpace = core.reverse := by
    rw [← List.head?_reverse] at hlast
    obtain ⟨rest, hreverse⟩ := List.head?_eq_some_iff.mp hlast
    rw [hreverse, List.dropWhile_cons, hlastSolid]
    rfl
  have hafter' : ∀ c ∈ after.reverse, Text.isUnicodeSpace c = true :=
    fun c hc => hafter c (List.mem_reverse.mp hc)
  rw [Text.trim, List.append_assoc, List.dropWhile_append_of_pos hbefore, hdrop,
    List.reverse_append, List.dropWhile_append_of_pos hafter', hdropLast, List.reverse_reverse]

/-- A text without white space is solid. -/
theorem Solid.of_forall {cs : List Char} (hne : cs ≠ [])
    (h : ∀ c ∈ cs, Text.isUnicodeSpace c = false) : Solid cs where
  first := ⟨cs.head hne, List.head?_eq_some_head hne, h _ (List.head_mem hne)⟩
  last := ⟨cs.getLast hne, List.getLast?_eq_some_getLast hne, h _ (List.getLast_mem hne)⟩

/-- Whether a text is solid can be seen from its beginning and its end. -/
theorem Solid.of_prefix_of_suffix {cs front back : List Char} (hfront : Solid front)
    (hback : Solid back) (hbegins : front <+: cs) (hends : back <:+ cs) : Solid cs := by
  obtain ⟨first, hfirst, hfirstSolid⟩ := hfront.first
  obtain ⟨last, hlast, hlastSolid⟩ := hback.last
  obtain ⟨after, rfl⟩ := hbegins
  obtain ⟨before, hbefore⟩ := hends
  refine ⟨⟨first, ?_, hfirstSolid⟩, ⟨last, ?_, hlastSolid⟩⟩
  · rw [List.head?_append, hfirst]
    rfl
  · rw [← hbefore, List.getLast?_append, hlast]
    rfl

theorem solid_digitText {digits : List (Fin 10)} (h : digits ≠ []) : Solid (digitText digits) :=
  .of_forall (mt List.map_eq_nil_iff.mp h) fun _ hc => isUnicodeSpace_of_mem_digitText hc

theorem solid_padded {width n : Nat} (hwidth : 0 < width) (h : n < 10 ^ width) :
    Solid (padded width n) := by
  rw [padded_eq hwidth h]
  exact solid_digitText (lastDigits_ne_nil hwidth n)

/-- Written dates are solid, and so are times and zones. -/
theorem WrittenDate.solid_text (date : WrittenDate) : Solid date.text := by
  have hyear : Solid (padded 4 date.year) := solid_padded (by decide) date.year_lt
  have hday : Solid (padded 2 date.day) := solid_padded (by decide) date.day_lt
  refine .of_prefix_of_suffix hyear hday (List.prefix_append _ _)
    ⟨padded 4 date.year ++ '-' :: (padded 2 date.month ++ ['-']), ?_⟩
  simp [WrittenDate.text]

theorem WrittenTime.solid_text (time : WrittenTime) : Solid time.text := by
  have hhour : Solid (padded 2 time.hour) := solid_padded (by decide) time.hour_lt
  have hsecond : Solid (padded 2 time.second) := solid_padded (by decide) time.second_lt
  have hbegins : padded 2 time.hour <+: time.text := List.prefix_append _ _
  cases hfraction : time.fraction with
  | nil =>
    refine .of_prefix_of_suffix hhour hsecond hbegins
      ⟨padded 2 time.hour ++ ':' :: (padded 2 time.minute ++ [':']), ?_⟩
    simp [WrittenTime.text, hfraction, fractionText]
  | cons first digits =>
    refine .of_prefix_of_suffix hhour (solid_digitText (List.cons_ne_nil first digits)) hbegins
      ⟨padded 2 time.hour ++ ':' :: (padded 2 time.minute ++
        ':' :: (padded 2 time.second ++ ['.'])), ?_⟩
    simp [WrittenTime.text, hfraction, fractionText]

theorem Zone.solid_text (zone : Zone) : Solid zone.text := by
  have hsign : ∀ c : Char, Text.isUnicodeSpace c = false → Solid [c] := fun c hc =>
    .of_forall (List.cons_ne_nil _ _) fun _ h => List.eq_of_mem_singleton h ▸ hc
  have hminutes : ∀ minutes : Fin 60, Solid (padded 2 minutes) := fun minutes =>
    solid_padded (by decide) (Nat.lt_trans minutes.isLt (by decide))
  cases zone with
  | utc => exact hsign 'Z' rfl
  | ahead hours minutes =>
    exact .of_prefix_of_suffix (hsign '+' rfl) (hminutes minutes)
      (List.prefix_append ['+'] _) ⟨'+' :: (padded 2 hours ++ [':']), by simp [Zone.text]⟩
  | behind hours minutes =>
    exact .of_prefix_of_suffix (hsign '-' rfl) (hminutes minutes)
      (List.prefix_append ['-'] _) ⟨'-' :: (padded 2 hours ++ [':']), by simp [Zone.text]⟩

namespace ReleaseText

/-- **A release text has no white space at its ends**, whichever form it has. -/
theorem solid_text (release : ReleaseText) : Solid release.text := by
  cases release with
  | zoned date time zone =>
    exact .of_prefix_of_suffix date.solid_text zone.solid_text (List.prefix_append _ _)
      ⟨date.text ++ 'T' :: time.text, by simp [text]⟩
  | joined date time =>
    exact .of_prefix_of_suffix date.solid_text time.solid_text (List.prefix_append _ _)
      ⟨date.text ++ ['T'], by simp [text]⟩
  | spaced date time =>
    exact .of_prefix_of_suffix date.solid_text time.solid_text (List.prefix_append _ _)
      ⟨date.text ++ [' '], by simp [text]⟩
  | bare date => exact date.solid_text

/-- **What is made of a text in one of the forms**, whatever white space stands around it. -/
theorem parse_text (release : ReleaseText) {before after : List Char}
    (hbefore : ∀ c ∈ before, Text.isUnicodeSpace c = true)
    (hafter : ∀ c ∈ after, Text.isUnicodeSpace c = true) :
    ReleaseDate.parse (String.ofList (before ++ release.text ++ after)) =
      if release.Possible then .ok release.named else .error .outOfRange := by
  have hne : release.text.isEmpty = false := by
    obtain ⟨c, hc, -⟩ := release.solid_text.first
    obtain ⟨rest, hrest⟩ := List.head?_eq_some_iff.mp hc
    rw [hrest]
    rfl
  rw [ReleaseDate.parse, String.toList_ofList, trim_append release.solid_text hbefore hafter]
  show (if release.text.isEmpty then _ else _) = _
  rw [hne, if_neg Bool.false_ne_true, settle_attempts]

end ReleaseText

end AccessRights.Calendar
