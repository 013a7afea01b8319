/-!
Dates of the proleptic Gregorian calendar, in years with a year zero, and the number of a day
counted from the first of January 1970.
-/

namespace SealedCatalog.Calendar

structure Date where
  year : Int
  month : Nat
  day : Nat
deriving DecidableEq, Inhabited, Repr

def isLeapYear (year : Int) : Bool :=
  year % 4 == 0 && (year % 100 != 0 || year % 400 == 0)

def daysInMonth (year : Int) (month : Nat) : Nat :=
  if month == 2 then
    if isLeapYear year then 29 else 28
  else if month == 4 || month == 6 || month == 9 || month == 11 then 30
  else 31

/-- The years that can be told apart. -/
def leastYear : Int := -262143

def greatestYear : Int := 262142

namespace Date

def isValid (date : Date) : Bool :=
  leastYear ≤ date.year && date.year ≤ greatestYear && 1 ≤ date.month && date.month ≤ 12 &&
    1 ≤ date.day && date.day ≤ daysInMonth date.year date.month

def daysBeforeMonth (year : Int) (month : Nat) : Nat :=
  (List.range (month - 1)).foldl (fun days before => days + daysInMonth year (before + 1)) 0

/-- The days from the first of January of year one to that of the given year. -/
def daysBeforeYear (year : Int) : Int :=
  let before := year - 1
  365 * before + before / 4 - before / 100 + before / 400

/-- The day's number; the first of January 1970 has the number zero. -/
def dayNumber (date : Date) : Int :=
  daysBeforeYear date.year + daysBeforeMonth date.year date.month + date.day - 1 -
    daysBeforeYear 1970

/-- The day of the week, from Sunday on. -/
def weekday (date : Date) : Nat :=
  ((date.dayNumber + 4) % 7).toNat

end Date

def leastDay : Int := Date.dayNumber ⟨leastYear, 1, 1⟩

def greatestDay : Int := Date.dayNumber ⟨greatestYear, 12, 31⟩

/-- A time as written: the second may be the sixtieth, a leap second. -/
structure TimeOfDay where
  hour : Nat
  minute : Nat
  second : Nat
  nanosecond : Nat
deriving DecidableEq, Inhabited, Repr

namespace TimeOfDay

def midnight : TimeOfDay := ⟨0, 0, 0, 0⟩

def isValid (time : TimeOfDay) : Bool :=
  time.hour ≤ 23 && time.minute ≤ 59 && time.second ≤ 60

def seconds (time : TimeOfDay) : Nat :=
  time.hour * 3600 + time.minute * 60 + time.second

end TimeOfDay

/-- The milliseconds from the start of 1970 to a moment, rounded down. The offset is the number of
seconds by which the written time is ahead of universal time. Nothing is given for what is no date
or time, or falls on no day that can be told apart. -/
def instant? (date : Date) (time : TimeOfDay) (offset : Int) : Option Int :=
  if date.isValid && time.isValid then
    let seconds := date.dayNumber * 86400 + time.seconds - offset
    -- A leap second belongs to the day that it ends.
    let day := (seconds - (if time.second == 60 then 1 else 0)) / 86400
    if leastDay ≤ day && day ≤ greatestDay then
      some (seconds * 1000 + (time.nanosecond / 1000000 : Nat))
    else
      none
  else
    none

end SealedCatalog.Calendar
