import SealedCatalog.Text.Blank
import SealedCatalog.Text.Digit

/-!
Reading the parts of a written moment off the front of a text. Each reader gives what it read and
the rest.
-/

namespace SealedCatalog.Calendar.Scan

/-- After what has been read, the next part follows. -/
theorem bind_of_read {α β : Type} {reader : Option α} {value : α} (read : reader = some value)
    (next : α → Option β) : (reader >>= next) = next value := by
  rw [read]
  rfl

theorem bind_of_unread {α β : Type} {reader : Option α} (unread : reader = none)
    (next : α → Option β) : (reader >>= next) = none := by
  rw [unread]
  rfl

/-- A natural number of at least `least` and at most `most` digits. -/
def number (least most : Nat) (input : List Char) : Option (Nat × List Char) :=
  let digits := (input.take most).takeWhile Char.isDigit
  if digits.length < least then none
  else some (Text.digitsValue digits, input.drop digits.length)

def longNumber (least : Nat) (input : List Char) : Option (Nat × List Char) :=
  number least input.length input

def char (expected : Char) : List Char → Option (List Char)
  | first :: rest => if first = expected then some rest else none
  | [] => none

theorem char_self (expected : Char) (rest : List Char) :
    char expected (expected :: rest) = some rest :=
  if_pos rfl

def blanks (input : List Char) : Option (List Char) :=
  match input with
  | first :: rest => if Text.isBlank first then some (Text.trimStart rest) else none
  | [] => none

theorem blanks_of_isDigit {first : Char} (digit : first.isDigit = true) (rest : List Char) :
    blanks (first :: rest) = none := by
  rw [blanks, Text.isBlank_of_isDigit digit]
  rfl

/-- The digits after a decimal point of seconds, as nanoseconds; those after the ninth do not
count. -/
def nanosecond (input : List Char) : Option (Nat × List Char) :=
  let digits := (input.take 9).takeWhile Char.isDigit
  if digits.isEmpty then none
  else
    some (Text.digitsValue digits * Nat.pow 10 (9 - digits.length),
      (input.drop digits.length).dropWhile Char.isDigit)

/-- The position of the first of some names of three letters, in either case, that stands at the
front. -/
def name (names : List (List Char)) (input : List Char) : Option (Nat × List Char) :=
  let letters := (input.take 3).map Char.toLower
  (names.findIdx? (· == letters)).map fun index => (index, input.drop 3)

def monthNames : List (List Char) :=
  ["jan", "feb", "mar", "apr", "may", "jun", "jul", "aug", "sep", "oct", "nov", "dec"].map
    String.toList

def dayNames : List (List Char) :=
  ["sun", "mon", "tue", "wed", "thu", "fri", "sat"].map String.toList

/-- No name of a day begins with a digit. -/
theorem name_dayNames_of_isDigit {first : Char} (digit : first.isDigit = true) (rest : List Char) :
    name dayNames (first :: rest) = none := by
  have letters : (dayNames.all fun name => name.all fun char => !char.isDigit) = true := by decide
  have beforeLetters : first.toNat ≤ '9'.toNat := (Char.isDigit_iff_toNat.mp digit).2
  have same : first.toLower = first := dif_neg fun upper =>
    absurd (Nat.le_trans (UInt32.le_iff_toNat_le.mp upper.1) beforeLetters) (by decide)
  rw [name, Option.map_eq_none_iff, List.findIdx?_eq_none_iff]
  intro name member
  refine beq_eq_false_iff_ne.mpr fun equal => ?_
  have begins : first ∈ name := by simp [equal, same]
  have letter := List.all_eq_true.mp (List.all_eq_true.mp letters name member) first begins
  simp [digit] at letter

private def minutes (input : List Char) : Option (Nat × List Char) :=
  (number 2 2 input).bind fun (value, rest) => if value < 60 then some (value, rest) else none

private def sign (alsoMinus : Bool) : List Char → Option (Bool × List Char)
  | '+' :: rest => some (false, rest)
  | '-' :: rest => some (true, rest)
  | '−' :: rest => if alsoMinus then some (true, rest) else none
  | _ => none

private def signedOffset (alsoMinus colon : Bool) (input : List Char) :
    Option (Int × List Char) := do
  let (negative, rest) ← sign alsoMinus input
  let (hours, rest) ← number 2 2 rest
  let rest ← if colon then char ':' rest else some rest
  let (minutes, rest) ← minutes rest
  let seconds : Int := hours * 3600 + minutes * 60
  some (if negative then -seconds else seconds, rest)

/-- An offset with a colon, or the letter Z. -/
def colonOffset : List Char → Option (Int × List Char)
  | 'Z' :: rest => some (0, rest)
  | 'z' :: rest => some (0, rest)
  | input => signedOffset true true input

/-- An offset is read as its sign, its hours and its minutes. -/
theorem colonOffset_of_number {behind : Bool} {input afterHours rest : List Char}
    {hours minute : Nat} (hoursRead : number 2 2 input = some (hours, ':' :: afterHours))
    (minuteRead : number 2 2 afterHours = some (minute, rest)) (inHour : minute < 60) :
    colonOffset ((if behind then '-' else '+') :: input) =
      some (if behind then -(hours * 3600 + minute * 60 : Int) else hours * 3600 + minute * 60,
        rest) := by
  cases behind <;>
    simp [colonOffset, signedOffset, sign, hoursRead, char, minutes, minuteRead, inHour]

private def zoneHours (letters : List Char) : Option Int :=
  if letters = ['g', 'm', 't'] || letters = ['u', 't'] || letters = ['z'] then some 0
  else if letters = ['e', 'd', 't'] then some (-4)
  else if letters = ['e', 's', 't'] || letters = ['c', 'd', 't'] then some (-5)
  else if letters = ['c', 's', 't'] || letters = ['m', 'd', 't'] then some (-6)
  else if letters = ['m', 's', 't'] || letters = ['p', 'd', 't'] then some (-7)
  else if letters = ['p', 's', 't'] then some (-8)
  else
    match letters with
    | [single] => if single = 'j' then none else some 0
    | _ => none

def zone (input : List Char) : Option (Int × List Char) :=
  let letters := input.takeWhile Char.isAlpha
  if letters.isEmpty then signedOffset false false input
  else
    (zoneHours (letters.map Char.toLower)).map fun hours =>
      (hours * 3600, input.drop letters.length)

/-- The rest after the parenthesis that closes the given number of open ones. A backslash takes its
meaning from the character after it. -/
private def commentEnd : Nat → List Char → Option (List Char)
  | _, [] => none
  | _, ['\\'] => none
  | depth, '\\' :: _ :: rest => commentEnd depth rest
  | depth, '(' :: rest => commentEnd (depth + 1) rest
  | 0, ')' :: rest => some rest
  | depth + 1, ')' :: rest => commentEnd depth rest
  | depth, _ :: rest => commentEnd depth rest

/-- Drop the comments at the front, each with the blanks before it; `fuel` bounds their number. -/
def comments : Nat → List Char → List Char
  | 0, input => input
  | fuel + 1, input =>
      match Text.trimStart input with
      | '(' :: rest =>
          match commentEnd 0 rest with
          | some rest => comments fuel rest
          | none => input
      | _ => input

end SealedCatalog.Calendar.Scan
