import SealedCatalog.Number.Shortest
import SealedCatalog.Proofs.Number.Arithmetic

/-! How large the shortest decimal of a number is. It has 17 digits at most and does not leave the
interval of the reals that round to the number, and so all but the greatest number are written with
a magnitude that is well below the limit. -/

namespace SealedCatalog.Number

/-- The decimal has 17 digits at most, zero has no exponent, and the ratio is not passed. -/
structure Decimal.Within (decimal : Decimal) (numerator denominator : Nat) : Prop where
  digits : decimal.digits ≤ 10 ^ 17
  zero : decimal.digits = 0 → decimal.exponent = 0
  value : decimal.digits * 10 ^ decimal.exponent.toNat * denominator ≤
    numerator * 10 ^ (-decimal.exponent).toNat

namespace Decimal

variable {numerator denominator : Nat}

/-- To strip a zero keeps the value. -/
private theorem within_div_ten {digits : Nat} {exponent : Int} (zero : digits % 10 = 0)
    (nonzero : digits ≠ 0)
    (within : Within ⟨digits, exponent⟩ numerator denominator) :
    Within ⟨digits / 10, exponent + 1⟩ numerator denominator := by
  have whole : digits = digits / 10 * 10 := by omega
  refine ⟨Nat.le_trans (Nat.div_le_self _ _) within.digits, fun none => absurd none ?_, ?_⟩
  · dsimp only
    omega
  have value := within.value
  dsimp only at value ⊢
  rw [whole] at value
  by_cases low : 0 ≤ exponent
  · have up : (exponent + 1).toNat = exponent.toNat + 1 := by omega
    have down : (-(exponent + 1)).toNat = (-exponent).toNat := by omega
    rw [up, down, Nat.pow_succ', ← Nat.mul_assoc]
    exact value
  · have up : (exponent + 1).toNat = exponent.toNat := by omega
    have down : (-exponent).toNat = (-(exponent + 1)).toNat + 1 := by omega
    rw [down, Nat.pow_succ, ← Nat.mul_assoc, Nat.mul_right_comm _ 10, Nat.mul_right_comm _ 10]
      at value
    rw [up]
    exact Nat.le_of_mul_le_mul_right value (by decide)

theorem within_strip (fuel : Nat) {digits : Nat} {exponent : Int}
    (within : Within ⟨digits, exponent⟩ numerator denominator) :
    Within (strip fuel digits exponent) numerator denominator := by
  induction fuel generalizing digits exponent with
  | zero => exact within
  | succ fuel induction =>
      rw [strip]
      split
      next stripped =>
        simp only [Bool.and_eq_true, beq_iff_eq, bne_iff_ne] at stripped
        exact induction (within_div_ten stripped.1 stripped.2 within)
      · exact within

theorem Within.normalize {decimal : Decimal} (within : decimal.Within numerator denominator) :
    decimal.normalize.Within numerator denominator :=
  within_strip _ within

end Decimal

namespace Binary64

/-! The leading exponent -/

/-- A ratio is below the power of ten. -/
def BelowPower (numerator denominator : Nat) (exponent : Int) : Prop :=
  numerator * 10 ^ (-exponent).toNat < denominator * 10 ^ exponent.toNat

theorem lt_ten_pow_digitCount (value : Nat) : value < 10 ^ digitCount value := by
  have positive : 0 < digitCount value := List.length_pos_iff.mpr Nat.toDigits_ne_nil
  exact (Nat.length_toDigits_le_iff (by decide) positive).mp (Nat.le_refl _)

private theorem below_leadingBelowOne {denominator : Nat} (fuel : Nat) {numerator steps : Nat}
    (below : numerator < denominator * 10) :
    steps ≤ leadingBelowOne numerator denominator fuel steps ∧
      numerator * 10 ^ (leadingBelowOne numerator denominator fuel steps - steps) <
        denominator * 10 := by
  induction fuel generalizing numerator steps with
  | zero => simpa [leadingBelowOne] using below
  | succ fuel induction =>
      rw [leadingBelowOne]
      split
      · simpa using below
      next less =>
        have next : numerator * 10 < denominator * 10 := by omega
        have ⟨counted, lifted⟩ := @induction (numerator * 10) (steps + 1) next
        refine ⟨by omega, ?_⟩
        have later := Nat.sub_add_cancel (Nat.le_sub_of_add_le' counted)
        rwa [Nat.mul_assoc, ← Nat.pow_succ', ← Nat.sub_sub, Nat.succ_eq_add_one, later] at lifted

theorem belowPower_leadingExponent {numerator denominator : Nat} (positive : 0 < denominator) :
    BelowPower numerator denominator (leadingExponent numerator denominator + 1) := by
  rw [leadingExponent]
  split
  next notBelow =>
    have quotient := (Nat.div_lt_iff_lt_mul positive).mp
      (lt_ten_pow_digitCount (numerator / denominator))
    have up : ((digitCount (numerator / denominator) : Int) - 1 + 1).toNat =
        digitCount (numerator / denominator) := by omega
    have down : (-((digitCount (numerator / denominator) : Int) - 1 + 1)).toNat = 0 := by omega
    rw [BelowPower, up, down, Nat.pow_zero, Nat.mul_one, Nat.mul_comm denominator]
    exact quotient
  next less =>
    have ⟨_, lifted⟩ := @below_leadingBelowOne denominator 400 numerator 0 (by omega)
    cases steps : leadingBelowOne numerator denominator 400 0 with
    | zero =>
        rw [steps] at lifted
        simpa [BelowPower] using lifted
    | succ steps' =>
        rw [steps, Nat.sub_zero, Nat.pow_succ, ← Nat.mul_assoc] at lifted
        have up : (-((steps' + 1 : Nat) : Int) + 1).toNat = 0 := by omega
        have down : (-(-((steps' + 1 : Nat) : Int) + 1)).toNat = steps' := by omega
        rw [BelowPower, up, down, Nat.pow_zero, Nat.mul_one]
        omega

/-- With every further digit of the grid a point gets ten times further from zero. -/
private theorem div_lt_ten_pow {numerator denominator : Nat} (positive : 0 < denominator)
    {exponent : Int} {count : Nat} (below : BelowPower numerator denominator (exponent + count)) :
    numerator * 10 ^ (-exponent).toNat / (denominator * 10 ^ exponent.toNat) < 10 ^ count := by
  have scale : 0 < denominator * 10 ^ exponent.toNat :=
    Nat.mul_pos positive (Nat.pow_pos (by decide))
  let finer := (-exponent).toNat - (-(exponent + count)).toNat
  have down : (-exponent).toNat = (-(exponent + count)).toNat + finer := by omega
  have up : (exponent + count).toNat + finer = count + exponent.toNat := by omega
  rw [Nat.div_lt_iff_lt_mul scale, down, Nat.pow_add, ← Nat.mul_assoc]
  calc numerator * 10 ^ (-(exponent + count)).toNat * 10 ^ finer
      < denominator * 10 ^ (exponent + count).toNat * 10 ^ finer :=
        Nat.mul_lt_mul_of_pos_right below (Nat.pow_pos (by decide))
    _ = denominator * 10 ^ (count + exponent.toNat) := by rw [Nat.mul_assoc, ← Nat.pow_add, up]
    _ = 10 ^ count * (denominator * 10 ^ exponent.toNat) := by
        rw [Nat.pow_add, Nat.mul_left_comm]

/-! Points of a grid -/

theorem Interval.le_of_holds {range : Interval} {scaledNumerator scaledDenominator : Nat}
    (holds : range.holds scaledNumerator scaledDenominator = true) :
    scaledNumerator * range.denominator ≤ range.high * scaledDenominator := by
  simp only [Interval.holds] at holds
  split at holds
  · simp only [Bool.and_eq_true, decide_eq_true_eq] at holds
    exact holds.2
  · simp only [Bool.and_eq_true, decide_eq_true_eq] at holds
    exact Nat.le_of_lt holds.2

theorem gridPoint_within {range : Interval} {exponent : Int} {digits : Nat}
    (found : gridPoint range exponent = some digits) :
    0 < digits ∧
      digits ≤
        range.middle * 10 ^ (-exponent).toNat / (range.denominator * 10 ^ exponent.toNat) + 1 ∧
      digits * 10 ^ exponent.toNat * range.denominator ≤ range.high * 10 ^ (-exponent).toNat := by
  simp only [gridPoint, Nat.pow_eq] at found
  split at found
  next belowHolds aboveHolds =>
    simp only [Bool.and_eq_true, decide_eq_true_eq] at belowHolds
    split at found <;> rw [← Option.some.inj found]
    · exact ⟨belowHolds.1, Nat.le_succ _, Interval.le_of_holds belowHolds.2⟩
    · exact ⟨Nat.succ_pos _, Nat.le_refl _, Interval.le_of_holds aboveHolds⟩
  next belowHolds _ =>
    simp only [Bool.and_eq_true, decide_eq_true_eq] at belowHolds
    rw [← Option.some.inj found]
    exact ⟨belowHolds.1, Nat.le_succ _, Interval.le_of_holds belowHolds.2⟩
  next _ aboveHolds =>
    rw [← Option.some.inj found]
    exact ⟨Nat.succ_pos _, Nat.le_refl _, Interval.le_of_holds aboveHolds⟩
  next => cases found

theorem firstGrid_within {range : Interval} (positive : 0 < range.denominator) {leading : Int}
    (below : BelowPower range.middle range.denominator (leading + 1)) (fuel : Nat) {count : Nat}
    (counted : fuel + count ≤ 18) :
    (firstGrid range leading fuel count).Within range.high range.denominator := by
  induction fuel generalizing count with
  | zero => exact ⟨by simp [firstGrid], fun _ => rfl, by simp [firstGrid]⟩
  | succ fuel induction =>
      simp only [firstGrid]
      split
      next digits found =>
        have ⟨nonzero, nearest, inside⟩ := gridPoint_within found
        refine ⟨?_, fun zero => absurd zero (Nat.ne_of_gt nonzero), inside⟩
        have split : leading + 1 = leading - (count : Int) + 1 + count := by omega
        rw [split] at below
        have few := Nat.lt_of_le_of_lt nearest (Nat.succ_lt_succ (div_lt_ten_pow positive below))
        exact Nat.le_trans (Nat.le_of_lt_succ few) (Nat.pow_le_pow_right (by decide) (by omega))
      · exact induction (by omega)

theorem denominator_interval_pos (number : Binary64) : 0 < number.interval.denominator :=
  Nat.mul_pos (by decide) (Nat.pow_pos (by decide))

theorem shortest_within (number : Binary64) :
    number.shortest.Within number.interval.high number.interval.denominator :=
  firstGrid_within number.denominator_interval_pos
    (belowPower_leadingExponent number.denominator_interval_pos) 17 (by decide)

/-! All numbers but the greatest -/

def greatest : Binary64 := ⟨0x7fefffffffffffff⟩

/-- The middle between the greatest finite magnitude and the one before it. -/
def ceiling : Nat := (2 ^ 54 - 3) * 2 ^ 970

theorem shortest_greatest : greatest.shortest.normalize = ⟨17976931348623157, 292⟩ := by
  decide +kernel

/-- The sign is no part of a decimal magnitude. -/
theorem shortest_congr {left right : Binary64} (significand : left.significand = right.significand)
    (power : left.power = right.power) : left.shortest = right.shortest := by
  simp only [shortest, interval, significand, power]

private theorem high_le {significand power : Nat} (greatest : Nat) (fits : significand < 2 ^ 53)
    (low : power ≤ greatest + 1)
    (notGreatest : ¬ (significand = 2 ^ 53 - 1 ∧ power = greatest + 1)) :
    (4 * significand + 2) * 2 ^ power ≤ (2 ^ 54 - 3) * 2 ^ (greatest + 2) := by
  have twice : 2 ^ (greatest + 2) = 4 * 2 ^ greatest := by rw [Nat.pow_add, Nat.mul_comm]
  rw [twice]
  rcases Nat.lt_or_eq_of_le low with less | same
  · calc (4 * significand + 2) * 2 ^ power
        ≤ (2 ^ 55 - 2) * 2 ^ greatest :=
          Nat.mul_le_mul (by omega) (Nat.pow_le_pow_right (by decide) (by omega))
      _ ≤ (2 ^ 54 - 3) * (4 * 2 ^ greatest) := by omega
  · have smaller : 4 * significand + 2 ≤ 2 ^ 55 - 6 := by omega
    have next : 2 ^ power = 2 * 2 ^ greatest := by rw [same, Nat.pow_succ']
    rw [next]
    exact Nat.le_trans (Nat.mul_le_mul_right _ smaller) (by omega)

/-- A multiple of the denominator that is not above the high end, where powers cancel. -/
private theorem le_of_mul_le_high {magnitude high power greatest : Nat} (least top : Nat)
    (inside : magnitude * (4 * 2 ^ (least - power)) ≤ high * 2 ^ (power - least))
    (bounded : high * 2 ^ power ≤ (2 ^ 54 - 3) * 2 ^ (greatest + 2))
    (split : greatest + 2 = top + 2 + least) : magnitude ≤ (2 ^ 54 - 3) * 2 ^ top := by
  have unit := Nat.two_pow_pos (least - power)
  have scaled := Nat.mul_le_mul_right (2 ^ least) inside
  have same : 2 ^ (power - least) * 2 ^ least = 2 ^ power * 2 ^ (least - power) := by
    rw [← Nat.pow_add, ← Nat.pow_add]
    congr 1
    omega
  rw [Nat.mul_assoc high, same, ← Nat.mul_assoc high, ← Nat.mul_assoc magnitude,
    Nat.mul_right_comm] at scaled
  have whole := Nat.le_trans (Nat.le_of_mul_le_mul_right scaled unit) bounded
  rw [split, Nat.pow_add 2 (top + 2), ← Nat.mul_assoc] at whole
  have quarter := Nat.le_of_mul_le_mul_right whole (Nat.two_pow_pos least)
  rw [Nat.pow_add 2 top] at quarter
  omega

/-- The magnitude that a number is written with when no digit stands behind the point. -/
theorem magnitude_shortest_le {number : Binary64} (finite : number.isFinite = true)
    (notGreatest : ¬ (number.significand = greatest.significand ∧ number.power = greatest.power))
    (whole : 0 ≤ number.shortest.normalize.exponent) :
    number.shortest.normalize.digits * 10 ^ number.shortest.normalize.exponent.toNat ≤ ceiling := by
  have within := number.shortest_within.normalize.value
  have noDown : (-number.shortest.normalize.exponent).toNat = 0 := by omega
  have last : greatest.significand = 2 ^ 53 - 1 ∧ greatest.power = 2044 + 1 := by decide
  rw [last.1, last.2] at notGreatest
  rw [noDown, Nat.pow_zero, Nat.mul_one] at within
  rw [ceiling]
  exact le_of_mul_le_high 1074 970 within
    (high_le 2044 number.significand_lt (power_le finite) notGreatest) rfl

end Binary64

end SealedCatalog.Number
