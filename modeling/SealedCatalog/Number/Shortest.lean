import SealedCatalog.Number.Binary64

/-!
The shortest decimal that reads back as a given binary number, and its text.

Around a binary number lies the interval of reals that round to it. Of the decimals in that
interval those with the fewest digits are taken, and of these the nearest to the number.
-/

namespace SealedCatalog.Number

structure Decimal where
  digits : Nat
  exponent : Int
deriving DecidableEq, Inhabited

namespace Binary64

/-- The reals rounding to a positive number, in units of `1 / denominator`. The ends belong to it
when the significand is even. -/
structure Interval where
  low : Nat
  middle : Nat
  high : Nat
  denominator : Nat
  closed : Bool

def interval (number : Binary64) : Interval :=
  let significand := number.significand
  -- The gap below a power of two is half the gap above it.
  let narrow := significand == Nat.pow 2 52 && number.power > 0
  let low := if narrow then 4 * significand - 1 else 4 * significand - 2
  let numeratorScale := Nat.pow 2 (number.power - 1074)
  let denominatorScale := Nat.pow 2 (1074 - number.power)
  ⟨low * numeratorScale, 4 * significand * numeratorScale, (4 * significand + 2) * numeratorScale,
    4 * denominatorScale, significand % 2 == 0⟩

def Interval.holds (range : Interval) (scaledNumerator scaledDenominator : Nat) : Bool :=
  -- The point is scaledNumerator / scaledDenominator.
  let left := range.low * scaledDenominator
  let point := scaledNumerator * range.denominator
  let right := range.high * scaledDenominator
  if range.closed then left ≤ point && point ≤ right else left < point && point < right

def digitCount (value : Nat) : Nat :=
  (Nat.toDigits 10 value).length

/-- The exponent of the leading decimal digit of a positive ratio below one: the fewest powers of
ten that lift it to one, found within `fuel` steps. -/
def leadingBelowOne (numerator denominator : Nat) : Nat → Nat → Nat
  | 0, steps => steps
  | fuel + 1, steps =>
      if numerator ≥ denominator then steps
      else leadingBelowOne (numerator * 10) denominator fuel (steps + 1)

def leadingExponent (numerator denominator : Nat) : Int :=
  if numerator ≥ denominator then
    (digitCount (numerator / denominator) : Int) - 1
  else
    -(leadingBelowOne numerator denominator 400 0 : Int)

/-- The point of the decimal grid of a given exponent that lies in the interval and is nearest to
its middle, if one lies there. -/
def gridPoint (range : Interval) (exponent : Int) : Option Nat :=
  let up := Nat.pow 10 exponent.toNat
  let down := Nat.pow 10 (-exponent).toNat
  let below := range.middle * down / (range.denominator * up)
  let remainder := range.middle * down % (range.denominator * up)
  let belowHolds := below > 0 && range.holds (below * up) down
  let aboveHolds := range.holds ((below + 1) * up) down
  let nearerBelow := 2 * remainder < range.denominator * up ||
    (2 * remainder == range.denominator * up && below % 2 == 0)
  match belowHolds, aboveHolds with
  | true, true => if nearerBelow then some below else some (below + 1)
  | true, false => some below
  | false, true => some (below + 1)
  | false, false => none

/-- Try grids of `count` digits and finer ones, `fuel` of them. -/
def firstGrid (range : Interval) (leading : Int) : Nat → Nat → Decimal
  | 0, _ => ⟨0, 0⟩
  | fuel + 1, count =>
      let exponent := leading - (count : Int) + 1
      match gridPoint range exponent with
      | some digits => ⟨digits, exponent⟩
      | none => firstGrid range leading fuel (count + 1)

/-- The shortest decimal magnitude that reads back as a finite number other than zero. -/
def shortest (number : Binary64) : Decimal :=
  let range := number.interval
  firstGrid range (leadingExponent range.middle range.denominator) 17 1

end Binary64

namespace Decimal

def strip : Nat → Nat → Int → Decimal
  | 0, digits, exponent => ⟨digits, exponent⟩
  | fuel + 1, digits, exponent =>
      if digits % 10 == 0 && digits != 0 then strip fuel (digits / 10) (exponent + 1)
      else ⟨digits, exponent⟩

def normalize (decimal : Decimal) : Decimal :=
  strip (Binary64.digitCount decimal.digits) decimal.digits decimal.exponent

end Decimal

/-- How a binary number is written: which leading exponents are positional. A positional number
always has a point, and the exponent of a scientific one always has a sign. -/
structure FloatFormat where
  lowestPositional : Int
  highestPositional : Int

def FloatFormat.plain : FloatFormat := ⟨-5, 15⟩

def signedDigits (value : Int) : List Char :=
  (if value < 0 then '-' else '+') :: Nat.toDigits 10 value.natAbs

def Decimal.write (format : FloatFormat) (decimal : Decimal) : List Char :=
  let stripped := decimal.normalize
  let digits := Nat.toDigits 10 stripped.digits
  let leading := stripped.exponent + (digits.length : Int) - 1
  if format.lowestPositional ≤ leading && leading ≤ format.highestPositional then
    if stripped.exponent ≥ 0 then
      digits ++ List.replicate stripped.exponent.toNat '0' ++ ['.', '0']
    else if leading ≥ 0 then
      let whole := leading.toNat + 1
      digits.take whole ++ '.' :: digits.drop whole
    else
      '0' :: '.' :: (List.replicate (-leading - 1).toNat '0' ++ digits)
  else
    match digits with
    | [single] => single :: 'e' :: signedDigits leading
    | first :: rest => first :: '.' :: (rest ++ 'e' :: signedDigits leading)
    | [] => []

def Binary64.write (format : FloatFormat) (number : Binary64) : List Char :=
  let magnitude := if number.isZero then ['0', '.', '0'] else number.shortest.write format
  if number.isNegative then '-' :: magnitude else magnitude

end SealedCatalog.Number
