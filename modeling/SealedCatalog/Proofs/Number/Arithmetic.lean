import SealedCatalog.Proofs.Number.Rounding

/-! When products and quotients of finite numbers are finite numbers again. -/

namespace SealedCatalog.Number.Binary64

theorem significand_lt (number : Binary64) : number.significand < 2 ^ 53 := by
  have fraction : number.fractionField < 2 ^ 52 := by
    rw [fractionField_eq]
    exact Nat.mod_lt _ (by decide)
  rw [significand, Nat.pow_eq]
  split <;> omega

theorem power_le {number : Binary64} (finite : number.isFinite = true) : number.power ≤ 2045 := by
  have field : number.exponentField < 2 ^ 11 := by
    rw [exponentField_eq]
    exact Nat.mod_lt _ (by decide)
  have := isFinite_iff.mp finite
  rw [power]
  omega

private theorem mul_two_pow_lt {significand power : Nat} (greatest : Nat)
    (fits : significand < 2 ^ 53) (low : power ≤ greatest + 1) :
    significand * 2 ^ power < (2 ^ 54 - 1) * 2 ^ greatest := by
  have unit := Nat.two_pow_pos greatest
  have product : significand * 2 ^ power ≤ (2 ^ 53 - 1) * 2 ^ (greatest + 1) :=
    Nat.mul_le_mul (Nat.le_pred_of_lt fits) (Nat.pow_le_pow_right (by decide) low)
  rw [Nat.pow_succ 2 greatest] at product
  omega

theorem units_lt_limit {number : Binary64} (finite : number.isFinite = true) :
    number.units < limit := by
  rw [limit]
  exact mul_two_pow_lt 2044 number.significand_lt (power_le finite)

theorem denominator_toRatio_pos (number : Binary64) : 0 < number.toRatio.denominator := by
  rw [toRatio, Nat.pow_eq]
  split
  · exact Nat.zero_lt_one
  · exact Nat.two_pow_pos _

private theorem shifted_mul (significand power least : Nat) :
    (if power ≥ least then (significand * 2 ^ (power - least), 1)
      else (significand, 2 ^ (least - power))).1 * 2 ^ least =
      significand * 2 ^ power * (if power ≥ least then (significand * 2 ^ (power - least), 1)
        else (significand, 2 ^ (least - power))).2 := by
  split
  next high => rw [Nat.mul_assoc, ← Nat.pow_add, Nat.sub_add_cancel high, Nat.mul_one]
  next low => rw [Nat.mul_assoc, ← Nat.pow_add, Nat.add_sub_cancel' (by omega)]

/-- The ratio of a number is its magnitude. -/
theorem numerator_toRatio_mul (number : Binary64) :
    number.toRatio.numerator * unity = number.units * number.toRatio.denominator := by
  have whole := shifted_mul number.significand number.power 1074
  rw [unity, units, toRatio]
  simp only [Nat.pow_eq]
  split at whole
  next high =>
    rw [if_pos high]
    exact whole
  next low =>
    rw [if_neg low]
    exact whole

theorem isFinite_of_multiply {left right product : Binary64}
    (found : left.multiply right = some product) : product.isFinite = true :=
  isFinite_of_ofRatio (Nat.mul_pos left.denominator_toRatio_pos right.denominator_toRatio_pos) found

theorem exists_multiply_eq {left right : Binary64}
    (below : left.units * right.units < limit * unity) :
    ∃ product, left.multiply right = some product ∧ product.isFinite = true := by
  have divides := Nat.mul_pos left.denominator_toRatio_pos right.denominator_toRatio_pos
  have product : left.toRatio.numerator * right.toRatio.numerator * unity <
      limit * (left.toRatio.denominator * right.toRatio.denominator) := by
    refine Nat.lt_of_mul_lt_mul_right (a := unity) ?_
    calc left.toRatio.numerator * right.toRatio.numerator * unity * unity
        = left.toRatio.numerator * unity * (right.toRatio.numerator * unity) := by
          rw [Nat.mul_assoc _ unity unity, Nat.mul_mul_mul_comm]
      _ = left.units * right.units *
          (left.toRatio.denominator * right.toRatio.denominator) := by
          rw [numerator_toRatio_mul, numerator_toRatio_mul, Nat.mul_mul_mul_comm]
      _ < limit * unity * (left.toRatio.denominator * right.toRatio.denominator) :=
          Nat.mul_lt_mul_of_pos_right below divides
      _ = limit * (left.toRatio.denominator * right.toRatio.denominator) * unity :=
          Nat.mul_right_comm _ _ _
  rcases exists_ofRatio_eq_some (left.toRatio.negative != right.toRatio.negative) divides product
    with ⟨number, rounded⟩
  exact ⟨number, rounded, isFinite_of_multiply rounded⟩

/-- No division by a number that is not below one leads beyond the finite numbers. -/
theorem exists_divide_eq {left right : Binary64} (finite : left.isFinite = true)
    (notBelow : unity ≤ right.units) :
    ∃ quotient, left.divide right = some quotient ∧ quotient.isFinite = true := by
  have proper : right.toRatio.denominator ≤ right.toRatio.numerator := by
    refine Nat.le_of_mul_le_mul_right (c := unity) ?_ unity_pos
    rw [numerator_toRatio_mul, Nat.mul_comm]
    exact Nat.mul_le_mul_right _ notBelow
  have positive := Nat.lt_of_lt_of_le right.denominator_toRatio_pos proper
  have divides := Nat.mul_pos left.denominator_toRatio_pos positive
  have below : left.toRatio.numerator * right.toRatio.denominator * unity <
      limit * (left.toRatio.denominator * right.toRatio.numerator) := by
    calc left.toRatio.numerator * right.toRatio.denominator * unity
        = left.toRatio.numerator * unity * right.toRatio.denominator := Nat.mul_right_comm _ _ _
      _ = left.units * (left.toRatio.denominator * right.toRatio.denominator) := by
          rw [numerator_toRatio_mul, Nat.mul_assoc]
      _ ≤ left.units * (left.toRatio.denominator * right.toRatio.numerator) :=
          Nat.mul_le_mul_left _ (Nat.mul_le_mul_left _ proper)
      _ < limit * (left.toRatio.denominator * right.toRatio.numerator) :=
          Nat.mul_lt_mul_of_pos_right (units_lt_limit finite) divides
  rcases exists_ofRatio_eq_some (left.toRatio.negative != right.toRatio.negative) divides below with
    ⟨number, rounded⟩
  exact ⟨number, rounded, isFinite_of_ofRatio divides rounded⟩

/-- A natural number is rounded to one that passes no number of 53 bits that it does not pass. -/
theorem exists_ofInt_eq {value : Nat} (below : value * unity < limit) :
    ∃ number, ofInt value = some number ∧ number.isFinite = true ∧
      ∀ significand power, significand ≤ 2 ^ 53 → value ≤ significand * 2 ^ power →
        number.units ≤ significand * 2 ^ power * unity := by
  have unsigned : ofInt value = ofRatio ⟨false, value, 1⟩ := by
    have natural : decide ((value : Int) < 0) = false := by simp
    rw [ofInt, natural]
    rfl
  rcases exists_ofRatio_eq_some false Nat.one_pos ((Nat.mul_one limit).symm ▸ below) with
    ⟨number, rounded⟩
  refine ⟨number, unsigned.trans rounded, isFinite_of_ofRatio Nat.one_pos rounded, ?_⟩
  intro significand power fits bounded
  have scaled : significand * 2 ^ (power + 1074) = significand * 2 ^ power * unity := by
    rw [unity, pow_add 2 power 1074, Nat.mul_assoc]
  rw [← scaled]
  refine units_le_of_ofRatio Nat.one_pos rounded fits ?_
  rw [scaled, Nat.mul_one]
  exact Nat.mul_le_mul_right unity bounded

@[simp] theorem isFinite_negate (number : Binary64) : number.negate.isFinite = number.isFinite := by
  have field : number.negate.exponentField = number.exponentField := by
    have sign : (0x8000000000000000 : UInt64).toNat = 2 ^ 63 := rfl
    rw [exponentField_eq, exponentField_eq, negate, UInt64.toNat_xor, sign]
    apply Nat.eq_of_testBit_eq
    intro position
    rw [Nat.testBit_mod_two_pow, Nat.testBit_mod_two_pow, Nat.testBit_div_two_pow,
      Nat.testBit_div_two_pow, Nat.testBit_xor, Nat.testBit_two_pow]
    by_cases inside : position < 11
    · have different : position ≠ 11 := by omega
      simp [different]
    · simp [inside]
  rw [isFinite, field, isFinite]

end SealedCatalog.Number.Binary64
