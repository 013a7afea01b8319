import SealedCatalog.Number.Binary64
import SealedCatalog.Text.Digit

/-!
Numbers as texts of one length whose order as texts is the order of the numbers. A number that is
not negative has nineteen digits; a negative one has a minus and the eighteen digits of what its
magnitude lacks to the greatest. Magnitudes beyond that one count as it.
-/

namespace SealedCatalog.SortKey

def width : Nat := 18

def greatestMagnitude : Nat := Nat.pow 10 width - 1

def padded (length value : Nat) : List Char :=
  let digits := Nat.toDigits 10 value
  List.replicate (length - digits.length) '0' ++ digits

def packInteger (value : Int) : String :=
  let magnitude := min value.natAbs greatestMagnitude
  if value < 0 then
    String.ofList ('-' :: padded width (greatestMagnitude - magnitude))
  else
    String.ofList (padded (width + 1) magnitude)

private def clampInt64 (value : Int) : Int :=
  max (-(Nat.pow 2 63)) (min value (Nat.pow 2 63 - 1))

/-- The key of a binary number: a half is added and the sum rounded down. -/
def packNumber (value : Number.Binary64) : Option String :=
  if value.isFinite then
    value.addHalf.map fun sum => packInteger (clampInt64 sum.floor)
  else
    none

private def utf8Length (text : List Char) : Nat :=
  (String.ofList text).utf8ByteSize

def digitRun (text : List Char) : List Char :=
  (text.dropWhile fun char => !Text.isDecimalDigit char).takeWhile Text.isDecimalDigit

/-- The key of the number in a text, its first run of decimal digits. A run of more than eighteen
bytes after its leading zeros counts as the greatest number, and a shorter one with digits of
another script as zero. -/
def encodeNumberText (text : String) : Option String :=
  let run := digitRun text.toList
  if run.isEmpty then
    none
  else
    let significant := run.dropWhile (· == '0')
    if utf8Length significant > width then
      some (packInteger greatestMagnitude)
    else if significant.all Char.isDigit then
      some (packInteger (Text.digitsValue significant))
    else
      some (packInteger 0)

end SealedCatalog.SortKey
