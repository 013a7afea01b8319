import SealedCatalog.Proofs.Calendar.Moment
import SealedCatalog.Proofs.SortKey.Numbered
import SealedCatalog.SortKey

/-! Written moments as they are read. Each is read by one of the formats, in the order in which they
are tried, as the seconds from the epoch to the moment, and the keys of moments are in the order of
the moments. -/

namespace SealedCatalog.Calendar

open SortKey (padded)

/-! ## Internet timestamps -/

theorem bind_number {α : Type} {length value : Nat} (positive : 0 < length)
    (fits : value < 10 ^ length) (rest : List Char) (next : Nat × List Char → Option α) :
    (Scan.number length length (padded length value ++ rest) >>= next) = next (value, rest) :=
  Scan.bind_of_read (number_padded (Nat.le_refl length) positive fits rest) next

theorem bind_char {α : Type} (char : Char) (rest : List Char) (next : List Char → Option α) :
    (Scan.char char (char :: rest) >>= next) = next rest :=
  Scan.bind_of_read (Scan.char_self char rest) next

theorem internetTimestamp?_day (written : WrittenDate) :
    internetTimestamp? written.chars = none := by
  have ⟨yearFits, monthFits, dayFits⟩ := written.fits
  refine (bind_number (by decide) yearFits _ _).trans ?_
  refine (bind_char '-' _ _).trans ?_
  refine (bind_number (by decide) monthFits _ _).trans ?_
  refine (bind_char '-' _ _).trans ?_
  refine (Scan.bind_of_read (number_padded_end (Nat.le_refl 2) (by decide) dayFits) _).trans ?_
  rfl

/-- A date with a time of day is an internet timestamp if an offset follows. -/
theorem internetTimestamp?_clock (written : WrittenDate) (clock : Clock) {separator : Char}
    (known : separator = 'T' ∨ separator = ' ') {rest : List Char}
    (whole : ∀ char ∈ rest.head?, char ≠ '.') :
    internetTimestamp? (written.chars ++ separator :: (clock.chars ++ rest)) =
      (Scan.colonOffset rest).bind fun (offset, rest) =>
        if offset.natAbs < 86400 && rest.isEmpty then
          instant? written.date clock.time offset
        else none := by
  have ⟨yearFits, monthFits, dayFits⟩ := written.fits
  have ⟨hourFits, minuteFits, secondFits⟩ := clock.fits
  have date : (⟨written.date.year.toNat, written.date.month, written.date.day⟩ : Date) =
      written.date := by
    rw [Int.toNat_of_nonneg written.fourDigits.1]
  have text : written.chars ++ separator :: (clock.chars ++ rest) =
      padded 4 written.date.year.toNat ++ '-' :: (padded 2 written.date.month ++
        '-' :: (padded 2 written.date.day ++ separator :: (padded 2 clock.hour ++
          ':' :: (padded 2 clock.minute ++ ':' :: (padded 2 clock.second ++ rest))))) := by
    simp [WrittenDate.chars, Clock.chars]
  rw [text]
  -- From left to right, one step for each part that is read.
  refine (bind_number (by decide) yearFits _ _).trans ?_
  refine (bind_char '-' _ _).trans ?_
  refine (bind_number (by decide) monthFits _ _).trans ?_
  refine (bind_char '-' _ _).trans ?_
  refine (bind_number (by decide) dayFits _ _).trans ?_
  rcases known with rfl | rfl <;>
  · refine (Scan.bind_of_read rfl _).trans ?_
    refine (bind_number (by decide) hourFits _ _).trans ?_
    refine (bind_char ':' _ _).trans ?_
    refine (bind_number (by decide) minuteFits _ _).trans ?_
    refine (bind_char ':' _ _).trans ?_
    refine (bind_number (by decide) secondFits _ _).trans ?_
    -- A point after the second would begin a fraction.
    dsimp only
    rw [date]
    split
    · exact absurd rfl (whole _ rfl)
    · rfl

theorem colonOffset_zone (zone : Zone) : Scan.colonOffset zone.chars = some (zone.seconds, []) := by
  cases zone with
  | universal => rfl
  | offset behind hours minutes bounded =>
      have hoursFit : hours < 100 := by omega
      have minutesFit : minutes < 100 := by omega
      have hoursRead := number_padded (Nat.le_refl 2) (by decide) hoursFit
        (':' :: padded 2 minutes)
      have minutesRead := number_padded_end (Nat.le_refl 2) (by decide) minutesFit
      exact Scan.colonOffset_of_number hoursRead minutesRead (by omega)

theorem internetTimestamp?_timed (written : WrittenDate) (joined : Bool) (clock : Clock) :
    internetTimestamp? (Moment.timed written joined clock).chars = none := by
  have known : (if joined then 'T' else ' ') = 'T' ∨ (if joined then 'T' else ' ') = ' ' := by
    cases joined <;> simp
  have ended : ∀ char ∈ ([] : List Char).head?, char ≠ '.' := by simp
  have read := internetTimestamp?_clock written clock known ended
  rw [List.append_nil] at read
  exact read

theorem internetTimestamp?_zoned (written : WrittenDate) (clock : Clock) (zone : Zone) :
    internetTimestamp? (Moment.zoned written clock zone).chars =
      some (1000 * (Moment.zoned written clock zone).seconds) := by
  have whole : ∀ char ∈ zone.chars.head?, char ≠ '.' := by
    cases zone with
    | universal => simp [Zone.chars]
    | offset behind hours minutes bounded => cases behind <;> simp [Zone.chars]
  have read := internetTimestamp?_clock written clock (.inl rfl) whole
  simp only [colonOffset_zone, Option.bind_some, zone.natAbs_seconds_lt, List.isEmpty_nil,
    decide_true, Bool.and_true, if_true, instant?_clock written clock zone.natAbs_seconds_lt,
    Int.add_sub_assoc] at read
  exact read

/-! ## Layouts -/

theorem unsigned_padded (length value : Nat) (rest : List Char) :
    ∀ char ∈ (padded length value ++ rest).head?, char ≠ '-' ∧ char ≠ '+' := by
  rcases exists_padded_eq_cons length value with ⟨digit, digits, isDigit, eq⟩
  rw [eq]
  rintro _ ⟨⟩
  constructor <;>
  · rintro rfl
    cases isDigit

/-- The layout of a date whose parts a mark divides, and of what follows it. -/
def dateThen (mark : Char) (items : Layout) : Layout :=
  .year :: .literal mark :: .month :: .literal mark :: .day :: items

def clockItems : Layout :=
  [.hour, .literal ':', .minute, .literal ':', .second, .fraction]

theorem withTime_eq : Layout.withTime = [
    dateThen '-' (.literal 'T' :: clockItems),
    dateThen '-' (.blanks :: clockItems),
    dateThen '-' [.literal 'T', .hour, .literal ':', .minute],
    dateThen '-' [.blanks, .hour, .literal ':', .minute],
    dateThen '/' [.blanks, .hour, .literal ':', .minute, .literal ':', .second],
    dateThen '/' [.blanks, .hour, .literal ':', .minute]] := rfl

theorem instant?_eq_bind (layout : Layout) (input : List Char) : layout.instant? input =
    (layout.read ⟨⟨0, 0, 0⟩, .midnight⟩ input).bind fun written =>
      instant? written.date written.time 0 := rfl

theorem read_dateThen (written : WrittenDate) (rest : List Char) (items : Layout) :
    (dateThen '-' items).read ⟨⟨0, 0, 0⟩, .midnight⟩ (written.chars ++ rest) =
      items.read ⟨written.date, .midnight⟩ rest := by
  have ⟨yearFits, monthFits, dayFits⟩ := written.fits
  have year : max written.date.year 0 = written.date.year := Int.max_eq_left written.fourDigits.1
  simp [dateThen, Layout.read, Layout.readItem, WrittenDate.chars, trimStart_padded,
    Layout.signedYear_of_head (unsigned_padded _ _ _), Layout.twoDigits_eq, number_padded, yearFits,
    monthFits, dayFits, Scan.char, year]

/-- A date that is written with hyphens is read by no layout with another mark. -/
theorem read_dateThen_of_ne {mark : Char} (other : mark ≠ '-') (written : WrittenDate)
    (start : Written) (rest : List Char) (items : Layout) :
    (dateThen mark items).read start (written.chars ++ rest) = none := by
  have ⟨yearFits, _, _⟩ := written.fits
  simp [dateThen, Layout.read, Layout.readItem, WrittenDate.chars, trimStart_padded,
    Layout.signedYear_of_head (unsigned_padded _ _ _), number_padded, yearFits, Scan.char,
    other.symm]

theorem read_clockItems (date : Date) (clock : Clock) :
    clockItems.read ⟨date, .midnight⟩ clock.chars = some ⟨date, clock.time⟩ := by
  have ⟨hourFits, minuteFits, secondFits⟩ := clock.fits
  have secondRead := number_padded_end (Nat.le_succ 1) (by decide) secondFits
  have trimmed := trimStart_padded 2 clock.second []
  rw [List.append_nil] at trimmed
  simp [clockItems, Layout.read, Layout.readItem, Clock.chars, Clock.time, TimeOfDay.midnight,
    trimStart_padded, Layout.twoDigits_eq, number_padded, hourFits, minuteFits, secondRead, trimmed,
    Scan.char]

theorem read_literal (start : Written) (char : Char) (rest : List Char) (items : Layout) :
    Layout.read start (char :: rest) (.literal char :: items) = items.read start rest := by
  simp [Layout.read, Layout.readItem, Scan.char]

theorem read_literal_of_ne (start : Written) {char other : Char} (differs : char ≠ other)
    (rest : List Char) (items : Layout) :
    Layout.read start (char :: rest) (.literal other :: items) = none := by
  simp [Layout.read, Layout.readItem, Scan.char, differs]

theorem read_blanks_clock (start : Written) (clock : Clock) (items : Layout) :
    Layout.read start (' ' :: clock.chars) (.blanks :: items) = items.read start clock.chars := by
  have trimmed : Text.trimStart (' ' :: clock.chars) = clock.chars :=
    (List.dropWhile_cons_of_pos (by decide)).trans (trimStart_padded 2 clock.hour _)
  rw [Layout.read, Layout.readItem, trimmed, Option.bind_some]

/-- A date with a time of day is read by the layout of its letter or of its blank. -/
theorem withTime_timed (written : WrittenDate) (joined : Bool) (clock : Clock) :
    Layout.withTime.findSome? (·.instant? (Moment.timed written joined clock).chars) =
      some (1000 * (Moment.timed written joined clock).seconds) := by
  have instant := instant?_universal written clock
  cases joined with
  | true =>
      change Layout.withTime.findSome? (·.instant? (written.chars ++ 'T' :: clock.chars)) = _
      rw [withTime_eq, List.findSome?_cons, instant?_eq_bind, read_dateThen, read_literal,
        read_clockItems, Option.bind_some, instant]
      rfl
  | false =>
      -- The layout of the letter is tried first, and does not read the blank.
      have blank : ' ' ≠ 'T' := by decide
      change Layout.withTime.findSome? (·.instant? (written.chars ++ ' ' :: clock.chars)) = _
      rw [withTime_eq, List.findSome?_cons, instant?_eq_bind, read_dateThen,
        read_literal_of_ne _ blank, Option.bind_none, List.findSome?_cons, instant?_eq_bind,
        read_dateThen, read_blanks_clock, read_clockItems, Option.bind_some, instant]
      rfl

theorem withTime_day (written : WrittenDate) :
    Layout.withTime.findSome? (·.instant? written.chars) = none := by
  have ended := read_dateThen written []
  have slash : '/' ≠ '-' := by decide
  have marked := read_dateThen_of_ne slash written ⟨⟨0, 0, 0⟩, .midnight⟩ []
  simp only [List.append_nil] at ended marked
  simp only [withTime_eq, List.findSome?_cons, instant?_eq_bind, ended, marked]
  rfl

theorem dateOnly_day (written : WrittenDate) :
    Layout.dateOnly.findSome? (·.instant? written.chars) =
      some (1000 * (Moment.day written).seconds) := by
  have ended := read_dateThen written [] []
  rw [List.append_nil] at ended
  have whole : Layout.read ⟨written.date, .midnight⟩ [] [] = some ⟨written.date, .midnight⟩ := rfl
  have midnight := instant?_universal written ⟨0, 0, 0, by decide⟩
  change instant? written.date .midnight 0 = some (1000 * (Moment.day written).seconds) at midnight
  rw [show Layout.dateOnly = [dateThen '-' [], dateThen '/' [], dateThen '.' []] from rfl,
    List.findSome?_cons, instant?_eq_bind, ended, whole, Option.bind_some, midnight]

/-! ## Texts -/

theorem utf8ByteSize_padded {length value : Nat} (positive : 0 < length)
    (fits : value < 10 ^ length) : (String.ofList (padded length value)).utf8ByteSize = length := by
  rw [SortKey.utf8ByteSize_of_areDigits (SortKey.areDigits_padded _ _),
    SortKey.length_padded positive fits]

/-- A written date has all its parts. -/
theorem completeDate_day (written : WrittenDate) : completeDate written.chars = written.chars := by
  have ⟨yearFits, monthFits, dayFits⟩ := written.fits
  have year : (String.ofList (padded 4 written.date.year.toNat)).utf8ByteSize = 4 :=
    utf8ByteSize_padded (by decide) yearFits
  have month : (String.ofList (padded 2 written.date.month)).utf8ByteSize = 2 :=
    utf8ByteSize_padded (by decide) monthFits
  have day : (String.ofList (padded 2 written.date.day)).utf8ByteSize = 2 :=
    utf8ByteSize_padded (by decide) dayFits
  have hyphen : '-'.utf8Size = 1 := by decide
  have size : (String.ofList written.chars).utf8ByteSize = 10 := by
    simp only [WrittenDate.chars, String.ofList_append, String.ofList_cons,
      String.utf8ByteSize_append, String.utf8ByteSize_singleton, hyphen, year, month, day]
  rw [completeDate, size]
  rfl

/-- A written date begins with the digits of its year. -/
theorem mailDate?_written (written : WrittenDate) (rest : List Char) :
    mailDate? (written.chars ++ rest) = none := by
  have ⟨yearFits, _, _⟩ := written.fits
  have year : written.chars ++ rest = padded 4 written.date.year.toNat ++ _ :=
    List.append_assoc _ _ _
  have digits := SortKey.areDigits_padded 4 written.date.year.toNat
  have length : (padded 4 written.date.year.toNat).length = 4 :=
    SortKey.length_padded (by decide) yearFits
  rw [year]
  match padded 4 written.date.year.toNat, digits, length with
  | [first, second, third, fourth], digits, _ =>
      exact mailDate?_of_isDigit (digits first (by simp)) (digits second (by simp))
        (digits third (by simp)) _

namespace Moment

theorem timestamp?_text (moment : Moment) :
    timestamp? moment.text = some (1000 * moment.seconds) := by
  have nonempty : moment.chars.isEmpty = false := by
    cases moment <;> simp [chars, WrittenDate.chars]
  rw [timestamp?, text, String.toList_ofList, moment.trim_chars, nonempty]
  cases moment with
  | day written =>
      have mail := mailDate?_written written []
      rw [List.append_nil] at mail
      simp only [chars, internetTimestamp?_day, mail, withTime_day, completeDate_day, dateOnly_day]
      rfl
  | timed written joined clock =>
      have mail : mailDate? (timed written joined clock).chars = none := mailDate?_written written _
      simp only [internetTimestamp?_timed, mail, withTime_timed]
      rfl
  | zoned written clock zone =>
      simp only [internetTimestamp?_zoned]
      rfl

/-! ## Keys -/

/-- No moment is beyond the greatest integer that can be packed. -/
theorem clamped_seconds (moment : Moment) :
    SortKey.clamped (1000 * moment.seconds) = 1000 * moment.seconds := by
  have ⟨first, last⟩ := moment.written.dayNumber_bounds
  have ⟨least, greatest⟩ := moment.secondsOfDay_bounds
  rw [SortKey.clamped, SortKey.greatestMagnitude_eq, seconds]
  omega

theorem encodeDateText_text (moment : Moment) : SortKey.encodeDateText moment.text =
    some (SortKey.packInteger (1000 * moment.seconds)) := by
  rw [SortKey.encodeDateText, timestamp?_text, Option.map_some]

/-- A written moment is read as the seconds that are counted from the epoch to it, and the keys of
two moments are in the order of the moments, before the epoch and after it. -/
theorem chronological (moment other : Moment) :
    ∃ seconds otherSeconds key otherKey,
      (∀ count, moment.IsAt count ↔ count = seconds) ∧
      (∀ count, other.IsAt count ↔ count = otherSeconds) ∧
      timestamp? moment.text = some (1000 * seconds) ∧
      SortKey.encodeDateText moment.text = some key ∧
      SortKey.encodeDateText other.text = some otherKey ∧
      (key < otherKey ↔ seconds < otherSeconds) ∧
      (key = otherKey ↔ seconds = otherSeconds) := by
  refine ⟨moment.seconds, other.seconds, _, _, fun _ => moment.isAt_iff, fun _ => other.isAt_iff,
    moment.timestamp?_text, moment.encodeDateText_text, other.encodeDateText_text, ?_, ?_⟩
  · rw [SortKey.packInteger_lt_packInteger_iff, clamped_seconds, clamped_seconds]
    omega
  · rw [SortKey.packInteger_eq_packInteger_iff, clamped_seconds, clamped_seconds]
    omega

end Moment

end SealedCatalog.Calendar
