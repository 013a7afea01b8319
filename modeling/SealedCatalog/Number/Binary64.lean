import SealedCatalog.Number.Rounding

/-!
Numbers of the 64-bit binary floating-point format, as bit patterns. Arithmetic is exact in the
natural numbers and rounds once at the end, to the nearest number and a tie to the even one.
-/

namespace SealedCatalog.Number

structure Binary64 where
  bits : UInt64
deriving DecidableEq, Inhabited

/-- A rational number as sign and magnitude; zero keeps its sign. -/
structure Ratio where
  negative : Bool
  numerator : Nat
  denominator : Nat
deriving DecidableEq

namespace Binary64

def isNegative (number : Binary64) : Bool :=
  number.bits >>> 63 != 0

def exponentField (number : Binary64) : Nat :=
  ((number.bits >>> 52) &&& 0x7ff).toNat

def fractionField (number : Binary64) : Nat :=
  (number.bits &&& 0xfffffffffffff).toNat

def isFinite (number : Binary64) : Bool :=
  number.exponentField != 0x7ff

/-- The integer `m` of a finite magnitude `m * 2 ^ (power - 1074)`. -/
def significand (number : Binary64) : Nat :=
  if number.exponentField == 0 then
    number.fractionField
  else
    Nat.pow 2 52 + number.fractionField

def power (number : Binary64) : Nat :=
  number.exponentField - 1

def isZero (number : Binary64) : Bool :=
  number.significand == 0

def toRatio (number : Binary64) : Ratio :=
  if number.power ≥ 1074 then
    ⟨number.isNegative, number.significand * Nat.pow 2 (number.power - 1074), 1⟩
  else
    ⟨number.isNegative, number.significand, Nat.pow 2 (1074 - number.power)⟩

def assemble (negative : Bool) (exponent fraction : Nat) : Binary64 :=
  let sign : UInt64 := if negative then 0x8000000000000000 else 0
  ⟨sign ||| (UInt64.ofNat exponent <<< 52) ||| UInt64.ofNat fraction⟩

def zero (negative : Bool) : Binary64 :=
  assemble negative 0 0

def ofParts (negative : Bool) (significand power : Nat) : Option Binary64 :=
  if significand < Nat.pow 2 52 then
    some (assemble negative 0 significand)
  else if power + 1 < 0x7ff then
    some (assemble negative (power + 1) (significand - Nat.pow 2 52))
  else
    none

/-- A magnitude times `2 ^ 1074`, divided by `2 ^ power` and rounded. -/
def scaled (numerator denominator power : Nat) : Nat :=
  if power ≤ 1074 then
    roundQuotient (numerator * Nat.pow 2 (1074 - power)) denominator
  else
    roundQuotient numerator (denominator * Nat.pow 2 (power - 1074))

/-- The number nearest to a rational number, or nothing when that lies beyond the largest finite
number. -/
def ofRatio (ratio : Ratio) : Option Binary64 :=
  if ratio.numerator == 0 then
    some (zero ratio.negative)
  else
    -- The quotient lies between a half and twice this power of two.
    let magnitude := ratio.numerator.log2 + 1074 - ratio.denominator.log2
    let coarse := magnitude - 52
    let whole := if coarse ≤ 1074 then
        ratio.numerator * Nat.pow 2 (1074 - coarse) / ratio.denominator
      else
        ratio.numerator / (ratio.denominator * Nat.pow 2 (coarse - 1074))
    let power := if whole < Nat.pow 2 52 then coarse - 1 else coarse
    let significand := scaled ratio.numerator ratio.denominator power
    if significand == Nat.pow 2 53 then
      ofParts ratio.negative (Nat.pow 2 52) (power + 1)
    else
      ofParts ratio.negative significand power

def ofInt (value : Int) : Option Binary64 :=
  ofRatio ⟨decide (value < 0), value.natAbs, 1⟩

def multiply (left right : Binary64) : Option Binary64 :=
  let first := left.toRatio
  let second := right.toRatio
  ofRatio ⟨first.negative != second.negative, first.numerator * second.numerator,
    first.denominator * second.denominator⟩

/-- The quotient; the divisor is not zero. -/
def divide (left right : Binary64) : Option Binary64 :=
  let first := left.toRatio
  let second := right.toRatio
  ofRatio ⟨first.negative != second.negative, first.numerator * second.denominator,
    first.denominator * second.numerator⟩

def negate (number : Binary64) : Binary64 :=
  ⟨number.bits ^^^ 0x8000000000000000⟩

def addHalf (number : Binary64) : Option Binary64 :=
  let value := number.toRatio
  let doubled := 2 * value.numerator
  let denominator := 2 * value.denominator
  if value.negative then
    if doubled ≤ value.denominator then
      ofRatio ⟨false, value.denominator - doubled, denominator⟩
    else
      ofRatio ⟨true, doubled - value.denominator, denominator⟩
  else
    ofRatio ⟨false, doubled + value.denominator, denominator⟩

def floor (number : Binary64) : Int :=
  let value := number.toRatio
  if value.negative then
    -(ceilQuotient value.numerator value.denominator : Int)
  else
    (value.numerator / value.denominator : Nat)

def isInteger (number : Binary64) : Bool :=
  let value := number.toRatio
  value.numerator % value.denominator == 0

end Binary64

end SealedCatalog.Number
