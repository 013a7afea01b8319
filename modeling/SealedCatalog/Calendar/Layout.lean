import SealedCatalog.Calendar.Date
import SealedCatalog.Calendar.Scan

/-!
Layouts of written dates and times. Blanks may stand before every number, and a year with a sign
may have any number of digits.
-/

namespace SealedCatalog.Calendar

inductive LayoutItem where
  | year
  | month
  | day
  | hour
  | minute
  | second
  /-- A decimal point with the fraction of a second, or nothing. -/
  | fraction
  | literal (char : Char)
  | blanks
deriving DecidableEq, Repr

abbrev Layout := List LayoutItem

/-- What a layout has read: a date, and the time of day as far as it is written. -/
structure Written where
  date : Date
  time : TimeOfDay
deriving DecidableEq, Inhabited, Repr

namespace Layout

private def signedYear (input : List Char) : Option (Int × List Char) :=
  match input with
  | '-' :: rest => (Scan.longNumber 1 rest).map fun (value, rest) => (-(value : Int), rest)
  | '+' :: rest => (Scan.longNumber 1 rest).map fun (value, rest) => ((value : Int), rest)
  | rest => (Scan.number 1 4 rest).map fun (value, rest) => ((value : Int), rest)

private def twoDigits (input : List Char) : Option (Nat × List Char) :=
  Scan.number 1 2 (Text.trimStart input)

/-- A year is read as four digits if no sign stands in front of it. -/
theorem signedYear_of_head {input : List Char}
    (unsigned : ∀ char ∈ input.head?, char ≠ '-' ∧ char ≠ '+') :
    signedYear input = (Scan.number 1 4 input).map fun (value, rest) => ((value : Int), rest) := by
  unfold signedYear
  split
  · exact absurd rfl (unsigned _ rfl).1
  · exact absurd rfl (unsigned _ rfl).2
  · rfl

theorem twoDigits_eq (input : List Char) :
    twoDigits input = Scan.number 1 2 (Text.trimStart input) := rfl

def readItem (written : Written) (input : List Char) :
    LayoutItem → Option (Written × List Char)
  | .year =>
      (signedYear (Text.trimStart input)).map fun (year, rest) =>
        ({ written with date.year := year }, rest)
  | .month =>
      (twoDigits input).map fun (month, rest) => ({ written with date.month := month }, rest)
  | .day => (twoDigits input).map fun (day, rest) => ({ written with date.day := day }, rest)
  | .hour => (twoDigits input).map fun (hour, rest) => ({ written with time.hour := hour }, rest)
  | .minute =>
      (twoDigits input).map fun (minute, rest) => ({ written with time.minute := minute }, rest)
  | .second =>
      (twoDigits input).map fun (second, rest) => ({ written with time.second := second }, rest)
  | .fraction =>
      match input with
      | '.' :: rest =>
          (Scan.nanosecond rest).map fun (nanosecond, rest) =>
            ({ written with time.nanosecond := nanosecond }, rest)
      | _ => some (written, input)
  | .literal char => (Scan.char char input).map fun rest => (written, rest)
  | .blanks => some (written, Text.trimStart input)

def read (written : Written) (input : List Char) : Layout → Option Written
  | [] => if input.isEmpty then some written else none
  | item :: rest =>
      (readItem written input item).bind fun (written, input) => read written input rest

/-- The milliseconds that a text denotes by a layout, read as universal time. -/
def instant? (layout : Layout) (input : List Char) : Option Int := do
  let written ← layout.read ⟨⟨0, 0, 0⟩, .midnight⟩ input
  Calendar.instant? written.date written.time 0

private def dateItems (separator : Char) : Layout :=
  [.year, .literal separator, .month, .literal separator, .day]

private def minuteItems : Layout := [.hour, .literal ':', .minute]

private def secondItems : Layout := minuteItems ++ [.literal ':', .second]

/-- The layouts of a date with a time, in the order in which they are tried. -/
def withTime : List Layout := [
  dateItems '-' ++ .literal 'T' :: secondItems ++ [.fraction],
  dateItems '-' ++ .blanks :: secondItems ++ [.fraction],
  dateItems '-' ++ .literal 'T' :: minuteItems,
  dateItems '-' ++ .blanks :: minuteItems,
  dateItems '/' ++ .blanks :: secondItems,
  dateItems '/' ++ .blanks :: minuteItems]

def dateOnly : List Layout := [dateItems '-', dateItems '/', dateItems '.']

end Layout

end SealedCatalog.Calendar
