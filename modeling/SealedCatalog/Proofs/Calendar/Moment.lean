import Mathlib.Data.List.TakeWhile
import SealedCatalog.Calendar.Timestamp
import SealedCatalog.Proofs.Calendar.Day
import SealedCatalog.Proofs.SortKey.Packed

/-! Moments as they are written: a date, a date with a time of day, and a date with a time of day
and an offset. Their numbers are read back as they were written, and every one of them is an
instant. -/

namespace SealedCatalog.Calendar

open SortKey (padded)

/-! ## Moments -/

/-- A date whose year is written with four digits. -/
structure WrittenDate where
  date : Date
  onCalendar : date.IsOnCalendar
  fourDigits : 0 ≤ date.year ∧ date.year ≤ 9999

/-- A time of day in whole seconds, none of which is a leap second. -/
structure Clock where
  hour : Nat
  minute : Nat
  second : Nat
  bounded : hour ≤ 23 ∧ minute ≤ 59 ∧ second ≤ 59

inductive Zone where
  | universal
  /-- The time is ahead of universal time, or behind it. -/
  | offset (behind : Bool) (hours minutes : Nat) (bounded : hours ≤ 23 ∧ minutes ≤ 59)

inductive Moment where
  | day (date : WrittenDate)
  /-- The time of day is joined to the date by a letter, or apart from it by a blank. -/
  | timed (date : WrittenDate) (joined : Bool) (clock : Clock)
  | zoned (date : WrittenDate) (clock : Clock) (zone : Zone)

def WrittenDate.chars (written : WrittenDate) : List Char :=
  padded 4 written.date.year.toNat ++ '-' :: (padded 2 written.date.month ++
    '-' :: padded 2 written.date.day)

namespace Clock

def chars (clock : Clock) : List Char :=
  padded 2 clock.hour ++ ':' :: (padded 2 clock.minute ++ ':' :: padded 2 clock.second)

def time (clock : Clock) : TimeOfDay := ⟨clock.hour, clock.minute, clock.second, 0⟩

end Clock

namespace Zone

def chars : Zone → List Char
  | universal => ['Z']
  | offset behind hours minutes _ =>
      (if behind then '-' else '+') :: (padded 2 hours ++ ':' :: padded 2 minutes)

/-- The seconds that the time is ahead of universal time. -/
def seconds : Zone → Int
  | universal => 0
  | offset behind hours minutes _ =>
      if behind then -(hours * 3600 + minutes * 60 : Int) else hours * 3600 + minutes * 60

end Zone

namespace Moment

def written : Moment → WrittenDate
  | day written => written
  | timed written _ _ => written
  | zoned written _ _ => written

def chars : Moment → List Char
  | day written => written.chars
  | timed written joined clock =>
      written.chars ++ (if joined then 'T' else ' ') :: clock.chars
  | zoned written clock zone => written.chars ++ 'T' :: (clock.chars ++ zone.chars)

def text (moment : Moment) : String := String.ofList moment.chars

/-- The seconds of the moment in its day, in universal time. -/
def secondsOfDay : Moment → Int
  | day _ => 0
  | timed _ _ clock => clock.time.seconds
  | zoned _ clock zone => clock.time.seconds - zone.seconds

/-- Day after day, so many seconds are counted from the epoch to the moment. -/
def IsAt (moment : Moment) (seconds : Int) : Prop :=
  ∃ number, moment.written.date.HasNumber number ∧
    seconds = number * 86400 + moment.secondsOfDay

def seconds (moment : Moment) : Int :=
  moment.written.date.dayNumber * 86400 + moment.secondsOfDay

theorem isAt_iff (moment : Moment) {seconds : Int} :
    moment.IsAt seconds ↔ seconds = moment.seconds := by
  simp [IsAt, Moment.seconds, Date.hasNumber_iff moment.written.onCalendar]

end Moment

/-! ## Numbers -/

theorem digitsValue_padded (length value : Nat) : Text.digitsValue (padded length value) = value :=
  SortKey.ofDigitChars_padded length value

/-- A number is read back with as many digits as it was written with. -/
theorem number_padded {least length value : Nat} (short : least ≤ length) (positive : 0 < length)
    (fits : value < 10 ^ length) (rest : List Char) :
    Scan.number least length (padded length value ++ rest) = some (value, rest) := by
  have written := SortKey.length_padded positive fits
  have digits : (padded length value).takeWhile Char.isDigit = padded length value :=
    List.takeWhile_eq_self_iff.mpr (SortKey.areDigits_padded length value)
  rw [Scan.number, List.take_left' written, digits, List.drop_left, written,
    if_neg (Nat.not_lt.mpr short), digitsValue_padded]

theorem number_padded_end {least length value : Nat} (short : least ≤ length)
    (positive : 0 < length) (fits : value < 10 ^ length) :
    Scan.number least length (padded length value) = some (value, []) := by
  have read := number_padded short positive fits []
  rwa [List.append_nil] at read

theorem exists_padded_eq_cons (length value : Nat) :
    ∃ digit rest, digit.isDigit = true ∧ padded length value = digit :: rest := by
  cases written : padded length value with
  | nil => simp [padded] at written
  | cons digit rest =>
      exact ⟨digit, rest, SortKey.areDigits_padded length value digit (by simp [written]), rfl⟩

theorem trimStart_padded (length value : Nat) (rest : List Char) :
    Text.trimStart (padded length value ++ rest) = padded length value ++ rest := by
  rcases exists_padded_eq_cons length value with ⟨digit, digits, isDigit, eq⟩
  rw [eq, List.cons_append, Text.trimStart_of_head (Text.isBlank_of_isDigit isDigit)]

theorem WrittenDate.fits (written : WrittenDate) : written.date.year.toNat < 10000 ∧
    written.date.month < 100 ∧ written.date.day < 100 := by
  have ⟨⟨_, lastMonth⟩, _, lastDay⟩ := written.onCalendar
  have ⟨_, lastYear⟩ := written.fourDigits
  have longest : daysInMonth written.date.year written.date.month ≤ 31 := by
    unfold daysInMonth
    grind
  omega

theorem Clock.fits (clock : Clock) :
    clock.hour < 100 ∧ clock.minute < 100 ∧ clock.second < 100 := by
  have := clock.bounded
  omega

/-! ## Ends -/

theorem isBlank_of_mem_head?_padded {length value : Nat} {rest : List Char} :
    ∀ char ∈ (padded length value ++ rest).head?, Text.isBlank char = false := by
  rcases exists_padded_eq_cons length value with ⟨digit, digits, isDigit, eq⟩
  rw [eq]
  rintro _ ⟨⟩
  exact Text.isBlank_of_isDigit isDigit

/-- The text has a last character, which is not blank. -/
def EndsNonblank (text : List Char) : Prop :=
  ∃ char ∈ text.getLast?, Text.isBlank char = false

theorem EndsNonblank.append {rest : List Char} (ends : EndsNonblank rest) (start : List Char) :
    EndsNonblank (start ++ rest) := by
  rcases ends with ⟨char, last, nonblank⟩
  exact ⟨char, by simp [Option.mem_def.mp last], nonblank⟩

theorem EndsNonblank.cons {rest : List Char} (ends : EndsNonblank rest) (first : Char) :
    EndsNonblank (first :: rest) :=
  ends.append [first]

theorem endsNonblank_padded (length value : Nat) : EndsNonblank (padded length value) := by
  have written : padded length value ≠ [] := by simp [padded]
  exact ⟨_, List.getLast?_eq_some_getLast written, Text.isBlank_of_isDigit
    (SortKey.areDigits_padded length value _ (List.getLast_mem written))⟩

theorem WrittenDate.endsNonblank_chars (written : WrittenDate) : EndsNonblank written.chars :=
  ((((endsNonblank_padded _ _).cons _).append _).cons _).append _

theorem Clock.endsNonblank_chars (clock : Clock) : EndsNonblank clock.chars :=
  ((((endsNonblank_padded _ _).cons _).append _).cons _).append _

theorem Zone.endsNonblank_chars : ∀ zone : Zone, EndsNonblank zone.chars
  | universal => ⟨'Z', rfl, rfl⟩
  | offset _ _ _ _ => (((endsNonblank_padded _ _).cons _).append _).cons _

namespace Moment

theorem endsNonblank_chars : ∀ moment : Moment, EndsNonblank moment.chars
  | day written => written.endsNonblank_chars
  | timed _ _ clock => (clock.endsNonblank_chars.cons _).append _
  | zoned _ _ zone => ((zone.endsNonblank_chars.append _).cons _).append _

theorem trim_chars (moment : Moment) : Text.trim moment.chars = moment.chars := by
  refine Text.trim_eq_self ?_ ?_
  · cases moment <;> simp only [chars, WrittenDate.chars, List.append_assoc] <;>
      exact isBlank_of_mem_head?_padded
  · rcases moment.endsNonblank_chars with ⟨last, isLast, nonblank⟩
    exact fun char member => Option.mem_unique isLast member ▸ nonblank

end Moment

/-! ## Instants -/

theorem WrittenDate.isValid (written : WrittenDate) : written.date.isValid = true := by
  have ⟨⟨firstMonth, lastMonth⟩, firstDay, lastDay⟩ := written.onCalendar
  have ⟨firstYear, lastYear⟩ := written.fourDigits
  have least : leastYear ≤ written.date.year := Int.le_trans (by decide) firstYear
  have greatest : written.date.year ≤ greatestYear := Int.le_trans lastYear (by decide)
  simp [Date.isValid, least, greatest, firstMonth, lastMonth, firstDay, lastDay]

theorem WrittenDate.dayNumber_bounds (written : WrittenDate) :
    -719528 ≤ written.date.dayNumber ∧ written.date.dayNumber ≤ 2932896 := by
  have ⟨firstYear, lastYear⟩ := written.fourDigits
  have first := Date.daysBeforeYear_mono firstYear
  have within := Date.daysBeforeMonth_add_day_le written.onCalendar
  have whole := Date.daysBeforeYear_succ written.date.year
  have next := Date.daysBeforeYear_mono (Int.add_le_add_right lastYear 1)
  have firstDay := written.onCalendar.day.1
  have least : Date.daysBeforeYear 0 = -366 := by decide
  have epoch : Date.daysBeforeYear 1970 = 719162 := by decide
  have greatest : Date.daysBeforeYear (9999 + 1) = 3652059 := by decide
  simp only [Date.dayNumber]
  omega

theorem Clock.seconds_lt (clock : Clock) : clock.time.seconds < 86400 := by
  have := clock.bounded
  simp only [TimeOfDay.seconds, time]
  omega

/-- A written date and time is an instant at every offset of less than a day. -/
theorem instant?_clock (written : WrittenDate) (clock : Clock) {offset : Int}
    (inDay : offset.natAbs < 86400) : instant? written.date clock.time offset =
      some (1000 * (written.date.dayNumber * 86400 + clock.time.seconds - offset)) := by
  have ⟨hours, minutes, seconds⟩ := clock.bounded
  have validTime : clock.time.isValid = true := by
    simp [TimeOfDay.isValid, Clock.time, hours, minutes, Nat.le_succ_of_le seconds]
  have ⟨first, last⟩ := written.dayNumber_bounds
  have least : leastDay = -96465292 := by decide
  have greatest : greatestDay = 95026236 := by decide
  have secondsInDay := clock.seconds_lt
  have noLeap : (clock.time.second == 60) = false := by
    simp [Clock.time]
    omega
  have whole : clock.time.nanosecond = 0 := rfl
  simp only [instant?, written.isValid, validTime, Bool.and_true, if_true, noLeap, least, greatest,
    whole]
  rw [if_pos (by simp; omega)]
  congr 1
  omega

theorem instant?_universal (written : WrittenDate) (clock : Clock) :
    instant? written.date clock.time 0 =
      some (1000 * (written.date.dayNumber * 86400 + clock.time.seconds)) := by
  have noOffset : (0 : Int).natAbs < 86400 := by decide
  rw [instant?_clock written clock noOffset, Int.sub_zero]

theorem Zone.natAbs_seconds_lt (zone : Zone) : zone.seconds.natAbs < 86400 := by
  cases zone with
  | universal => decide
  | offset behind hours minutes bounded => cases behind <;> simp [seconds] <;> omega

theorem Moment.secondsOfDay_bounds (moment : Moment) :
    -86400 < moment.secondsOfDay ∧ moment.secondsOfDay < 2 * 86400 := by
  cases moment with
  | day written => simp [secondsOfDay]
  | timed written joined clock =>
      have := clock.seconds_lt
      simp only [secondsOfDay]
      omega
  | zoned written clock zone =>
      have := clock.seconds_lt
      have := zone.natAbs_seconds_lt
      simp only [secondsOfDay]
      omega

end SealedCatalog.Calendar
