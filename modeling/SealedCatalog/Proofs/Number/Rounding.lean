import Mathlib.Tactic.Ring
import Mathlib.Tactic.ByContra
import SealedCatalog.Number.Binary64

/-! Rounding to binary numbers. Magnitudes are counted in units of the least positive number. The
number nearest to a ratio exists as long as the ratio lies nearer to the greatest finite number than
to the power of two above it, it is finite, and it passes no number that the ratio does not pass. -/

namespace SealedCatalog.Number

/-! Rounded quotients -/

section Quotient

variable {numerator denominator : Nat}

theorem roundQuotient_mul_right {factor : Nat} (positive : 0 < factor) :
    roundQuotient (numerator * factor) (denominator * factor) =
      roundQuotient numerator denominator := by
  have doubled : 2 * (numerator % denominator * factor) =
      2 * (numerator % denominator) * factor := by
    rw [Nat.mul_assoc]
  have halves : (2 * (numerator % denominator) * factor == denominator * factor) =
      (2 * (numerator % denominator) == denominator) := by
    rw [Bool.eq_iff_iff, beq_iff_eq, beq_iff_eq, Nat.mul_right_cancel_iff positive]
  simp only [roundQuotient, Nat.mul_div_mul_right _ _ positive, Nat.mul_mod_mul_right, doubled,
    halves, gt_iff_lt, Nat.mul_lt_mul_right positive]

theorem le_roundQuotient {bound : Nat} (positive : 0 < denominator)
    (above : bound * denominator ≤ numerator) : bound ≤ roundQuotient numerator denominator := by
  have whole : bound ≤ numerator / denominator := (Nat.le_div_iff_mul_le positive).mpr above
  rcases roundQuotient_eq_or numerator denominator with same | next <;> omega

theorem roundQuotient_le {bound : Nat} (positive : 0 < denominator)
    (below : numerator ≤ bound * denominator) : roundQuotient numerator denominator ≤ bound := by
  have whole : numerator / denominator ≤ bound :=
    Nat.div_le_of_le_mul (Nat.mul_comm bound denominator ▸ below)
  rcases Nat.lt_or_eq_of_le whole with less | same
  · rcases roundQuotient_eq_or numerator denominator with floor | next <;> omega
  · have split := Nat.div_add_mod numerator denominator
    have exact : numerator % denominator = 0 := by
      rw [same, Nat.mul_comm] at split
      omega
    have notHalf : ¬ 0 = denominator := by omega
    simp [roundQuotient, exact, same, notHalf]

/-- A quotient is rounded up by no more than a half. -/
theorem two_mul_roundQuotient_le (numerator denominator : Nat) :
    2 * (roundQuotient numerator denominator * denominator) ≤ 2 * numerator + denominator := by
  have split := Nat.div_add_mod' numerator denominator
  simp only [roundQuotient]
  split
  · rw [Nat.add_mul]
    omega
  · split
    next half =>
      simp only [Bool.and_eq_true, beq_iff_eq] at half
      rw [Nat.add_mul]
      omega
    · omega

end Quotient

namespace Binary64

/-! The fields of a number -/

/-- A finite magnitude in units of the least positive number. -/
def units (number : Binary64) : Nat :=
  number.significand * 2 ^ number.power

/-- How many of these units make one. -/
def unity : Nat := 2 ^ 1074

/-- The greatest finite magnitude is half a step below this one. -/
def limit : Nat := (2 ^ 54 - 1) * 2 ^ 2044

theorem unity_pos : 0 < unity := by
  rw [unity]
  exact pow_pos Nat.two_pos 1074

theorem toNat_bits_assemble (negative : Bool) {exponent fraction : Nat}
    (exponentFits : exponent < 2 ^ 11) (fractionFits : fraction < 2 ^ 52) :
    (assemble negative exponent fraction).bits.toNat =
      2 ^ 63 * negative.toNat + 2 ^ 52 * exponent + fraction := by
  have shifted : exponent <<< 52 = 2 ^ 52 * exponent := by
    rw [Nat.shiftLeft_eq, Nat.mul_comm]
  have sign : (if negative then 0x8000000000000000 else (0 : UInt64)).toNat =
      2 ^ 63 * negative.toNat := by
    cases negative <;> rfl
  have fits : 2 ^ 52 * exponent < 2 ^ 63 := by omega
  have gathered : 2 ^ 63 * negative.toNat + 2 ^ 52 * exponent =
      2 ^ 52 * (2 ^ 11 * negative.toNat + exponent) := by omega
  have small : (UInt64.ofNat exponent).toNat = exponent :=
    UInt64.toNat_ofNat_of_lt' (by simp only [UInt64.size]; omega)
  have smallFraction : (UInt64.ofNat fraction).toNat = fraction :=
    UInt64.toNat_ofNat_of_lt' (by simp only [UInt64.size]; omega)
  have exponentBits : (UInt64.ofNat exponent <<< 52).toNat = 2 ^ 52 * exponent := by
    rw [UInt64.toNat_shiftLeft, small]
    show exponent <<< 52 % 2 ^ 64 = _
    rw [shifted, Nat.mod_eq_of_lt (by omega)]
  rw [assemble]
  simp only [UInt64.toNat_or, sign, exponentBits, smallFraction]
  rw [← Nat.two_pow_add_eq_or_of_lt fits, gathered, ← Nat.two_pow_add_eq_or_of_lt fractionFits]

theorem exponentField_eq (number : Binary64) :
    number.exponentField = number.bits.toNat / 2 ^ 52 % 2 ^ 11 := by
  have mask : (0x7ff : UInt64).toNat = 2 ^ 11 - 1 := rfl
  have shift : (52 : UInt64).toNat % 64 = 52 := rfl
  rw [exponentField, UInt64.toNat_and, UInt64.toNat_shiftRight, mask, shift,
    Nat.and_two_pow_sub_one_eq_mod, Nat.shiftRight_eq_div_pow]

theorem fractionField_eq (number : Binary64) :
    number.fractionField = number.bits.toNat % 2 ^ 52 := by
  have mask : (0xfffffffffffff : UInt64).toNat = 2 ^ 52 - 1 := rfl
  rw [fractionField, UInt64.toNat_and, mask, Nat.and_two_pow_sub_one_eq_mod]

theorem exponentField_assemble (negative : Bool) {exponent fraction : Nat}
    (exponentFits : exponent < 2 ^ 11) (fractionFits : fraction < 2 ^ 52) :
    (assemble negative exponent fraction).exponentField = exponent := by
  rw [exponentField_eq, toNat_bits_assemble negative exponentFits fractionFits]
  omega

theorem fractionField_assemble (negative : Bool) {exponent fraction : Nat}
    (exponentFits : exponent < 2 ^ 11) (fractionFits : fraction < 2 ^ 52) :
    (assemble negative exponent fraction).fractionField = fraction := by
  rw [fractionField_eq, toNat_bits_assemble negative exponentFits fractionFits]
  omega

theorem isFinite_iff {number : Binary64} :
    number.isFinite = true ↔ number.exponentField ≠ 2047 := by
  simp [isFinite]

theorem exists_ofParts_eq (negative : Bool) (significand : Nat) {power : Nat} (low : power ≤ 2045) :
    ∃ number, ofParts negative significand power = some number := by
  have below : power + 1 < 0x7ff := by omega
  rw [ofParts, if_pos below]
  split
  · exact ⟨_, rfl⟩
  · exact ⟨_, rfl⟩

/-- The parts of a number that is not below the least normal one are its fields. -/
theorem of_ofParts {negative : Bool} {significand power : Nat} {number : Binary64}
    (fits : significand < 2 ^ 53) (normal : power ≠ 0 → 2 ^ 52 ≤ significand)
    (assembled : ofParts negative significand power = some number) :
    number.isFinite = true ∧ number.units = significand * 2 ^ power := by
  simp only [ofParts, Nat.pow_eq] at assembled
  split at assembled
  next less =>
    cases assembled
    have zero : power = 0 := by
      by_contra nonzero
      have := normal nonzero
      omega
    have exponent := exponentField_assemble negative (by decide : 0 < 2 ^ 11) less
    have fraction := fractionField_assemble negative (by decide : 0 < 2 ^ 11) less
    refine ⟨isFinite_iff.mpr (by rw [exponent]; decide), ?_⟩
    simp [units, Binary64.significand, Binary64.power, exponent, fraction, zero]
  next notLess =>
    split at assembled
    next low =>
      cases assembled
      have exponentFits : power + 1 < 2 ^ 11 := by omega
      have fractionFits : significand - 2 ^ 52 < 2 ^ 52 := by omega
      have exponent := exponentField_assemble negative exponentFits fractionFits
      have fraction := fractionField_assemble negative exponentFits fractionFits
      have whole : Nat.pow 2 52 + (significand - 2 ^ 52) = significand :=
        Nat.add_sub_cancel' (Nat.le_of_not_lt notLess)
      refine ⟨isFinite_iff.mpr (by rw [exponent]; omega), ?_⟩
      rw [units, Binary64.significand, Binary64.power, exponent, fraction, if_neg (by simp), whole,
        Nat.add_sub_cancel]
    · cases assembled

/-! Ratios -/

section Ratio

variable {numerator denominator : Nat}

private theorem roundQuotient_shifted (numerator denominator power least : Nat) :
    (if power ≤ least then roundQuotient (numerator * 2 ^ (least - power)) denominator
      else roundQuotient numerator (denominator * 2 ^ (power - least))) =
      roundQuotient (numerator * 2 ^ least) (denominator * 2 ^ power) := by
  split
  next low =>
    rw [← roundQuotient_mul_right (Nat.two_pow_pos power), Nat.mul_assoc, ← Nat.pow_add,
      Nat.sub_add_cancel low]
  next high =>
    rw [← roundQuotient_mul_right (Nat.two_pow_pos least), Nat.mul_assoc denominator,
      ← Nat.pow_add, Nat.sub_add_cancel (by omega)]

private theorem quotient_shifted (numerator denominator power least : Nat) :
    (if power ≤ least then numerator * 2 ^ (least - power) / denominator
      else numerator / (denominator * 2 ^ (power - least))) =
      numerator * 2 ^ least / (denominator * 2 ^ power) := by
  split
  next low =>
    rw [← Nat.mul_div_mul_right _ _ (Nat.two_pow_pos power), Nat.mul_assoc, ← Nat.pow_add,
      Nat.sub_add_cancel low]
  next high =>
    rw [← Nat.mul_div_mul_right _ _ (Nat.two_pow_pos least), Nat.mul_assoc denominator,
      ← Nat.pow_add, Nat.sub_add_cancel (by omega)]

/-- A quotient of the ratio that is to be rounded, in units of a power of two. -/
theorem scaled_eq (numerator denominator power : Nat) :
    scaled numerator denominator power =
      roundQuotient (numerator * unity) (denominator * 2 ^ power) := by
  rw [unity]
  exact roundQuotient_shifted numerator denominator power 1074

/-- The power of two that is tried first is at most one too high. -/
private theorem coarse_bounds (positive : 0 < numerator) (divides : 0 < denominator)
    {least coarse : Nat} (tried : coarse = numerator.log2 + least - denominator.log2 - 52) :
    numerator * 2 ^ least < 2 ^ 53 * (denominator * 2 ^ coarse) ∧
      (coarse ≠ 0 → 2 ^ 51 * (denominator * 2 ^ coarse) < numerator * 2 ^ least) := by
  have ⟨atLeast, below⟩ : 2 ^ numerator.log2 ≤ numerator ∧ numerator < 2 ^ (numerator.log2 + 1) :=
    ⟨Nat.log2_self_le (Nat.ne_of_gt positive), Nat.lt_log2_self⟩
  have ⟨atLeast', below'⟩ :
      2 ^ denominator.log2 ≤ denominator ∧ denominator < 2 ^ (denominator.log2 + 1) :=
    ⟨Nat.log2_self_le (Nat.ne_of_gt divides), Nat.lt_log2_self⟩
  constructor
  · calc numerator * 2 ^ least
        < 2 ^ (numerator.log2 + 1) * 2 ^ least :=
          Nat.mul_lt_mul_of_pos_right below (Nat.two_pow_pos least)
      _ = 2 ^ (numerator.log2 + 1 + least) := (Nat.pow_add 2 _ _).symm
      _ ≤ 2 ^ (53 + (denominator.log2 + coarse)) := Nat.pow_le_pow_right (by decide) (by omega)
      _ = 2 ^ 53 * (2 ^ denominator.log2 * 2 ^ coarse) := by rw [Nat.pow_add, Nat.pow_add]
      _ ≤ 2 ^ 53 * (denominator * 2 ^ coarse) :=
          Nat.mul_le_mul_left _ (Nat.mul_le_mul_right _ atLeast')
  · intro nonzero
    calc 2 ^ 51 * (denominator * 2 ^ coarse)
        < 2 ^ 51 * (2 ^ (denominator.log2 + 1) * 2 ^ coarse) :=
          Nat.mul_lt_mul_of_pos_left
            (Nat.mul_lt_mul_of_pos_right below' (Nat.two_pow_pos coarse)) (by decide)
      _ = 2 ^ (51 + (denominator.log2 + 1 + coarse)) := by
          rw [Nat.pow_add 2 51, Nat.pow_add 2 (denominator.log2 + 1)]
      _ ≤ 2 ^ (numerator.log2 + least) := Nat.pow_le_pow_right (by decide) (by omega)
      _ = 2 ^ numerator.log2 * 2 ^ least := Nat.pow_add 2 _ _
      _ ≤ numerator * 2 ^ least := Nat.mul_le_mul_right _ atLeast

/-- A ratio is rounded in units of a power of two, of which it has 52 bits or more unless the power
is the least, and 53 at most. -/
theorem exists_ofRatio_eq (negative : Bool) (positive : 0 < numerator)
    (divides : 0 < denominator) :
    ∃ power, numerator * unity ≤ 2 ^ 53 * (denominator * 2 ^ power) ∧
      (power ≠ 0 → 2 ^ 52 * (denominator * 2 ^ power) ≤ numerator * unity) ∧
      ofRatio ⟨negative, numerator, denominator⟩ =
        let significand := roundQuotient (numerator * unity) (denominator * 2 ^ power)
        if significand == 2 ^ 53 then ofParts negative (2 ^ 52) (power + 1)
        else ofParts negative significand power := by
  have nonzero : (numerator == 0) = false := beq_eq_false_iff_ne.mpr (Nat.ne_of_gt positive)
  let coarse := numerator.log2 + 1074 - denominator.log2 - 52
  have bounds := coarse_bounds positive divides (Eq.refl coarse)
  rw [← unity] at bounds
  rcases bounds with ⟨below, above⟩
  have unit : 0 < denominator * 2 ^ coarse := Nat.mul_pos divides (Nat.two_pow_pos coarse)
  have whole : (if coarse ≤ 1074 then numerator * 2 ^ (1074 - coarse) / denominator
      else numerator / (denominator * 2 ^ (coarse - 1074))) =
      numerator * unity / (denominator * 2 ^ coarse) := by
    rw [unity]
    exact quotient_shifted numerator denominator coarse 1074
  have rounded : ofRatio ⟨negative, numerator, denominator⟩ =
      let power := if numerator * unity / (denominator * 2 ^ coarse) < 2 ^ 52 then coarse - 1
        else coarse
      let significand := roundQuotient (numerator * unity) (denominator * 2 ^ power)
      if significand == 2 ^ 53 then ofParts negative (2 ^ 52) (power + 1)
      else ofParts negative significand power := by
    simp only [ofRatio, nonzero, scaled_eq, Nat.pow_eq, Bool.false_eq_true, if_false]
    rw [whole]
  rw [rounded]
  by_cases short : numerator * unity / (denominator * 2 ^ coarse) < 2 ^ 52
  · rw [if_pos short]
    have fewer : numerator * unity < 2 ^ 52 * (denominator * 2 ^ coarse) :=
      (Nat.div_lt_iff_lt_mul unit).mp short
    refine ⟨coarse - 1, ?_, ?_, rfl⟩
    · cases found : coarse with
      | zero =>
          rw [found] at fewer
          exact Nat.le_of_lt (Nat.lt_of_lt_of_le fewer (Nat.mul_le_mul_right _ (by decide)))
      | succ finer =>
          have twice : denominator * 2 ^ (finer + 1) = 2 * (denominator * 2 ^ finer) := by
            rw [Nat.pow_succ]
            ac_rfl
          rw [found, twice] at fewer
          rw [Nat.add_sub_cancel]
          omega
    · intro notLeast
      have step : denominator * 2 ^ coarse = 2 * (denominator * 2 ^ (coarse - 1)) := by
        rw [show coarse = coarse - 1 + 1 by omega, Nat.pow_succ, Nat.add_sub_cancel]
        ac_rfl
      have enough := above (by omega)
      rw [step] at enough
      omega
  · rw [if_neg short]
    refine ⟨coarse, Nat.le_of_lt below, fun _ => ?_, rfl⟩
    exact (Nat.le_div_iff_mul_le unit).mp (Nat.le_of_not_lt short)

/-- What a ratio is rounded to is the rounded quotient in those units. -/
private theorem exists_units_eq (positive : 0 < numerator) (divides : 0 < denominator)
    {negative : Bool} {number : Binary64}
    (rounded : ofRatio ⟨negative, numerator, denominator⟩ = some number) :
    ∃ power, numerator * unity ≤ 2 ^ 53 * (denominator * 2 ^ power) ∧
      (power ≠ 0 → 2 ^ 52 * (denominator * 2 ^ power) ≤ numerator * unity) ∧
      number.isFinite = true ∧
      number.units = roundQuotient (numerator * unity) (denominator * 2 ^ power) * 2 ^ power := by
  rcases exists_ofRatio_eq negative positive divides with ⟨power, atMost, atLeast, same⟩
  have unit : 0 < denominator * 2 ^ power := Nat.mul_pos divides (Nat.two_pow_pos power)
  have fits : roundQuotient (numerator * unity) (denominator * 2 ^ power) ≤ 2 ^ 53 :=
    roundQuotient_le unit atMost
  rw [rounded] at same
  refine ⟨power, atMost, atLeast, ?_⟩
  by_cases carried : roundQuotient (numerator * unity) (denominator * 2 ^ power) = 2 ^ 53
  · simp only [carried, beq_self_eq_true, if_true] at same
    have ⟨finite, units⟩ := of_ofParts (by decide) (fun _ => Nat.le_refl _) same.symm
    refine ⟨finite, ?_⟩
    rw [units, carried, Nat.pow_succ]
    omega
  · simp only [beq_eq_false_iff_ne.mpr carried, Bool.false_eq_true, if_false] at same
    exact of_ofParts (by omega) (fun notLeast => le_roundQuotient unit (atLeast notLeast)) same.symm

@[simp] theorem isFinite_zero (negative : Bool) : (zero negative).isFinite = true := by
  cases negative <;> decide

@[simp] theorem units_zero (negative : Bool) : (zero negative).units = 0 := by
  cases negative <;> decide

theorem ofRatio_zero (negative : Bool) :
    ofRatio ⟨negative, 0, denominator⟩ = some (zero negative) :=
  rfl

theorem isFinite_of_ofRatio {negative : Bool} (divides : 0 < denominator) {number : Binary64}
    (rounded : ofRatio ⟨negative, numerator, denominator⟩ = some number) :
    number.isFinite = true := by
  rcases Nat.eq_zero_or_pos numerator with rfl | positive
  · rw [ofRatio_zero, Option.some.injEq] at rounded
    rw [← rounded, isFinite_zero]
  · have ⟨_, _, _, finite, _⟩ := exists_units_eq positive divides rounded
    exact finite

/-- A ratio is not rounded beyond a number of 53 bits that it does not pass. -/
theorem units_le_of_ofRatio {negative : Bool} (divides : 0 < denominator) {number : Binary64}
    (rounded : ofRatio ⟨negative, numerator, denominator⟩ = some number) {significand power : Nat}
    (fits : significand ≤ 2 ^ 53)
    (below : numerator * unity ≤ significand * 2 ^ power * denominator) :
    number.units ≤ significand * 2 ^ power := by
  rcases Nat.eq_zero_or_pos numerator with rfl | positive
  · rw [ofRatio_zero, Option.some.injEq] at rounded
    rw [← rounded, units_zero]
    exact Nat.zero_le _
  rcases exists_units_eq positive divides rounded with ⟨least, _, atLeast, _, units⟩
  have unit : 0 < denominator * 2 ^ least := Nat.mul_pos divides (Nat.two_pow_pos least)
  rw [units]
  by_cases finer : least ≤ power
  · have split : 2 ^ power = 2 ^ (power - least) * 2 ^ least := by
      rw [← Nat.pow_add, Nat.sub_add_cancel finer]
    have bounded : numerator * unity ≤
        significand * 2 ^ (power - least) * (denominator * 2 ^ least) := by
      rw [split] at below
      exact Nat.le_trans below (Nat.le_of_eq (by ac_rfl))
    have quotient := Nat.mul_le_mul_right (2 ^ least) (roundQuotient_le unit bounded)
    rwa [Nat.mul_assoc, ← split] at quotient
  · -- The units are twice as large only where the bound has no bit to spare.
    have enough : 2 ^ 52 * 2 ^ least ≤ significand * 2 ^ power := by
      have product := Nat.le_trans (atLeast (by omega)) below
      rw [← Nat.mul_assoc, Nat.mul_right_comm] at product
      exact Nat.le_of_mul_le_mul_right product divides
    have next : least = power + 1 := by
      have exponents : 2 ^ (52 + least) ≤ 2 ^ (53 + power) := by
        rw [Nat.pow_add, Nat.pow_add]
        exact Nat.le_trans enough (Nat.mul_le_mul_right _ fits)
      have := (Nat.pow_le_pow_iff_right (by decide)).mp exponents
      omega
    subst next
    have whole : significand = 2 ^ 53 := by
      have bits : 2 ^ 53 * 2 ^ power ≤ significand * 2 ^ power := by
        rw [Nat.pow_succ] at enough
        omega
      exact Nat.le_antisymm fits (Nat.le_of_mul_le_mul_right bits (Nat.two_pow_pos power))
    have bounded : numerator * unity ≤ 2 ^ 52 * (denominator * 2 ^ (power + 1)) := by
      refine Nat.le_trans below (Nat.le_of_eq ?_)
      rw [whole]
      ring
    have quotient := Nat.mul_le_mul_right (2 ^ (power + 1)) (roundQuotient_le unit bounded)
    rw [whole, Nat.pow_succ 2 52, Nat.mul_assoc, Nat.mul_comm 2, ← Nat.pow_succ]
    exact quotient

private theorem lt_of_pow_lt {power greatest : Nat}
    (less : 2 ^ 52 * 2 ^ power < (2 ^ 54 - 1) * 2 ^ greatest) : power < greatest + 2 := by
  by_contra high
  have exponents : 2 ^ (54 + greatest) ≤ 2 ^ (52 + power) :=
    Nat.pow_le_pow_right (by decide) (by omega)
  rw [Nat.pow_add 2 52, Nat.pow_add 2 54] at exponents
  exact absurd (Nat.lt_of_le_of_lt exponents less)
    (Nat.not_lt.mpr (Nat.mul_le_mul_right _ (by decide)))

private theorem roundQuotient_ne_of_lt {count greatest : Nat}
    (below : count < (2 ^ 54 - 1) * 2 ^ greatest * denominator) :
    roundQuotient count (denominator * 2 ^ (greatest + 1)) ≠ 2 ^ 53 := by
  intro carried
  have rounded := two_mul_roundQuotient_le count (denominator * 2 ^ (greatest + 1))
  rw [carried, Nat.pow_succ 2 greatest, ← Nat.mul_assoc denominator] at rounded
  rw [Nat.mul_assoc, Nat.mul_comm _ denominator] at below
  omega

/-- A ratio nearer to the greatest finite number than to the power of two above it is rounded to a
number. -/
theorem exists_ofRatio_eq_some (negative : Bool) (divides : 0 < denominator)
    (below : numerator * unity < limit * denominator) :
    ∃ number, ofRatio ⟨negative, numerator, denominator⟩ = some number := by
  rcases Nat.eq_zero_or_pos numerator with rfl | positive
  · exact ⟨_, ofRatio_zero negative⟩
  rcases exists_ofRatio_eq negative positive divides with ⟨power, _, atLeast, same⟩
  rw [same]
  have low : power ≤ 2045 := by
    rcases Nat.eq_zero_or_pos power with rfl | notLeast
    · decide
    have product := Nat.lt_of_le_of_lt (atLeast (by omega)) below
    rw [← Nat.mul_assoc, Nat.mul_right_comm] at product
    have := lt_of_pow_lt (Nat.lt_of_mul_lt_mul_right product)
    omega
  by_cases carried : roundQuotient (numerator * unity) (denominator * 2 ^ power) = 2 ^ 53
  · simp only [carried, beq_self_eq_true, if_true]
    refine exists_ofParts_eq negative (2 ^ 52) ?_
    by_contra high
    have greatest : power = 2044 + 1 := by omega
    subst greatest
    exact roundQuotient_ne_of_lt below carried
  · simp only [beq_eq_false_iff_ne.mpr carried, Bool.false_eq_true, if_false]
    exact exists_ofParts_eq negative _ low

end Ratio

end Binary64

end SealedCatalog.Number
