import SealedCatalog.Calendar.Layout

/-!
Calendar text as milliseconds since the start of 1970. The internet formats of dates come first,
with their offsets; other text is read as universal time, and a bare year or month stands for its
first day.
-/

namespace SealedCatalog.Calendar

/-- A date and time with an offset in the format of internet timestamps, such as
`1996-12-19T16:39:57-08:00`. -/
def internetTimestamp? (input : List Char) : Option Int := do
  let (year, rest) ← Scan.number 4 4 input
  let (month, rest) ← Scan.number 2 2 (← Scan.char '-' rest)
  let (day, rest) ← Scan.number 2 2 (← Scan.char '-' rest)
  let rest ← match rest with
    | 'T' :: rest => some rest
    | 't' :: rest => some rest
    | ' ' :: rest => some rest
    | _ => none
  let (hour, rest) ← Scan.number 2 2 rest
  let (minute, rest) ← Scan.number 2 2 (← Scan.char ':' rest)
  let (second, rest) ← Scan.number 2 2 (← Scan.char ':' rest)
  let (nanosecond, rest) ← match rest with
    | '.' :: rest => Scan.nanosecond rest
    | rest => some (0, rest)
  let (offset, rest) ← Scan.colonOffset rest
  if offset.natAbs < 86400 && rest.isEmpty then
    instant? ⟨year, month, day⟩ ⟨hour, minute, second, nanosecond⟩ offset
  else
    none

private def fullYear (digits year : Nat) : Nat :=
  if digits = 2 then if year ≤ 49 then year + 2000 else year + 1900
  else if digits = 3 then year + 1900
  else year

/-- The name of a day and a comma, or nothing; a name must have its comma. -/
private def mailWeekday (input : List Char) : Option (Option Nat × List Char) :=
  match Scan.name Scan.dayNames input with
  | some (weekday, rest) => (Scan.char ',' rest).map (some weekday, ·)
  | none => some (none, input)

private def mailSecond (input : List Char) : Option (Nat × List Char) :=
  match Scan.char ':' (Text.trimStart input) with
  | some rest => Scan.number 2 2 rest
  | none => some (0, input)

/-- A date and time in the format of mail headers, such as `Thu, 19 Dec 1996 16:39:57 -0800`. A day
of the week must be the right one, and comments may follow. -/
def mailDate? (input : List Char) : Option Int := do
  let (weekday, rest) ← mailWeekday (Text.trimStart input)
  let (day, rest) ← Scan.number 1 2 (Text.trimStart rest)
  let (month, rest) ← Scan.name Scan.monthNames (← Scan.blanks rest)
  let beforeYear ← Scan.blanks rest
  let (year, rest) ← Scan.longNumber 2 beforeYear
  let (hour, rest) ← Scan.number 2 2 (← Scan.blanks rest)
  let rest ← Scan.char ':' (Text.trimStart rest)
  let (minute, rest) ← Scan.number 2 2 (Text.trimStart rest)
  let (second, rest) ← mailSecond rest
  let (offset, rest) ← Scan.zone (← Scan.blanks rest)
  let digits := (beforeYear.takeWhile Char.isDigit).length
  let date : Date := ⟨fullYear digits year, month + 1, day⟩
  let rightWeekday := match weekday with
    | none => true
    | some weekday => weekday == date.weekday
  if rightWeekday && offset.natAbs < 86400 && (Scan.comments rest.length rest).isEmpty then
    instant? date ⟨hour, minute, second, 0⟩ offset
  else
    none

/-- A text that begins with three digits is no date of a mail header, where at most two stand before
a blank. -/
theorem mailDate?_of_isDigit {first second third : Char} (firstDigit : first.isDigit = true)
    (secondDigit : second.isDigit = true) (thirdDigit : third.isDigit = true) (rest : List Char) :
    mailDate? (first :: second :: third :: rest) = none := by
  have trimmed := Text.trimStart_of_head (Text.isBlank_of_isDigit firstDigit)
    (second :: third :: rest)
  have unnamed : mailWeekday (Text.trimStart (first :: second :: third :: rest)) =
      some (none, first :: second :: third :: rest) := by
    rw [trimmed, mailWeekday, Scan.name_dayNames_of_isDigit firstDigit]
  have number : Scan.number 1 2 (Text.trimStart (first :: second :: third :: rest)) =
      some (Text.digitsValue [first, second], third :: rest) := by
    rw [trimmed]
    simp [Scan.number, firstDigit, secondDigit]
  refine (Scan.bind_of_read unnamed _).trans ?_
  refine (Scan.bind_of_read number _).trans ?_
  exact Scan.bind_of_unread (Scan.blanks_of_isDigit thirdDigit rest) _

/-- A date with its missing parts: four bytes are a year, seven a year and a month. -/
def completeDate (text : List Char) : List Char :=
  let size := (String.ofList text).utf8ByteSize
  if size = 4 then text ++ "-01-01".toList
  else if size = 7 then text ++ "-01".toList
  else text

def timestamp? (text : String) : Option Int :=
  let input := Text.trim text.toList
  if input.isEmpty then
    none
  else
    internetTimestamp? input <|> mailDate? input <|>
      Layout.withTime.findSome? (·.instant? input) <|>
      Layout.dateOnly.findSome? (·.instant? (completeDate input))

end SealedCatalog.Calendar
