import SealedCatalog.Proofs.Json.Numeral
import SealedCatalog.Proofs.Number.Shortest

/-! Every finite number is read from its text as a finite number. The two roundings on the way can
lift a number, but none of those that are written is lifted beyond the finite ones. -/

namespace SealedCatalog.Json

namespace Numeral

open Number
open Number.Binary64 (unity limit ceiling greatest)

/-! Powers of ten -/

/-- A number of 53 bits, with a power of two, that no significand passes which is written with the
power of ten. -/
def roof (exponent : Nat) : Nat × Nat :=
  if exponent < 292 then (2 ^ 53, 4)
  else if exponent = 292 then (8988465674311578, 1)
  else (ceiling / 10 ^ exponent, 0)

/-- The power of ten is not below one and does not lift the roof beyond the limit. -/
def Carries (exponent : Nat) : Prop :=
  (roof exponent).1 ≤ 2 ^ 53 ∧
    min (10 ^ 17) (ceiling / 10 ^ exponent) ≤ (roof exponent).1 * 2 ^ (roof exponent).2 ∧
    ∃ power ∈ powerOfTen exponent, unity ≤ power.units ∧
      (roof exponent).1 * 2 ^ (roof exponent).2 * power.units < limit

instance : DecidablePred Carries := fun exponent =>
  inferInstanceAs (Decidable ((roof exponent).1 ≤ 2 ^ 53 ∧
    min (10 ^ 17) (ceiling / 10 ^ exponent) ≤ (roof exponent).1 * 2 ^ (roof exponent).2 ∧
    ∃ power ∈ powerOfTen exponent, unity ≤ power.units ∧
      (roof exponent).1 * 2 ^ (roof exponent).2 * power.units < limit))

theorem carries : ∀ exponent < 309, Carries exponent := by
  decide +kernel

theorem powerOfTen_zero : (powerOfTen 0).map Binary64.units = some unity := by
  decide +kernel

theorem exists_powerOfTen_eq {exponent : Nat} (low : exponent ≤ 308) :
    ∃ power, powerOfTen exponent = some power ∧ unity ≤ power.units := by
  have ⟨_, _, power, found, notBelow, _⟩ := carries exponent (by omega)
  exact ⟨power, found, notBelow⟩

private theorem ceiling_lt : ceiling < 10 ^ 309 := by
  decide +kernel

private theorem lt_ten_pow {value exponent : Nat} (high : Nat) (below : value < 10 ^ high)
    (higher : high ≤ exponent) : value < 10 ^ exponent :=
  Nat.lt_of_lt_of_le below (Nat.pow_le_pow_right (by decide) higher)

/-! Scaling -/

/-- Nothing that is scaled down leaves the finite numbers. -/
theorem exists_scale_eq_of_nonpos (fuel : Nat) {magnitude : Binary64}
    (finite : magnitude.isFinite = true) {exponent : Int} (down : exponent ≤ 0) :
    ∃ scaled, scale fuel magnitude exponent = some scaled ∧ scaled.isFinite = true := by
  induction fuel generalizing magnitude exponent with
  | zero => exact ⟨_, rfl, Binary64.isFinite_zero false⟩
  | succ fuel induction =>
      rw [scale]
      split
      next low =>
        by_cases same : exponent = 0
        · subst same
          rcases Option.map_eq_some_iff.mp powerOfTen_zero with ⟨one, found, units⟩
          have below : magnitude.units * one.units < limit * unity := by
            rw [units]
            exact Nat.mul_lt_mul_of_pos_right (Binary64.units_lt_limit finite) Binary64.unity_pos
          rw [Int.natAbs_zero, found, if_pos (Int.le_refl 0), Option.bind_some]
          exact Binary64.exists_multiply_eq below
        · rcases exists_powerOfTen_eq low with ⟨power, found, notBelow⟩
          have negative : ¬ exponent ≥ 0 := by omega
          rw [found, if_neg negative, Option.bind_some]
          exact Binary64.exists_divide_eq finite notBelow
      next high =>
        split
        · exact ⟨magnitude, rfl, finite⟩
        · have negative : ¬ exponent ≥ 0 := by omega
          rcases exists_powerOfTen_eq (Nat.le_refl 308) with ⟨power, found, notBelow⟩
          rcases Binary64.exists_divide_eq finite notBelow with ⟨reduced, divided, reducedFinite⟩
          rw [if_neg negative, found, Option.bind_some, divided, Option.bind_some]
          exact induction reducedFinite (by omega)

/-- A significand of 17 digits that is lifted no higher than the ceiling stays finite. -/
theorem exists_scale_eq_of_le {significand : Nat} (few : significand ≤ 10 ^ 17) {exponent : Int}
    (up : 0 < exponent) (bounded : significand * 10 ^ exponent.toNat ≤ ceiling) (fuel : Nat)
    {magnitude : Binary64} (finite : magnitude.isFinite = true)
    (rounded : ∀ bits power, bits ≤ 2 ^ 53 → significand ≤ bits * 2 ^ power →
      magnitude.units ≤ bits * 2 ^ power * unity) :
    ∃ scaled, scale (fuel + 1) magnitude exponent = some scaled ∧ scaled.isFinite = true := by
  have notBelow : exponent ≥ 0 := Int.le_of_lt up
  rw [scale]
  split
  next low =>
    have same : exponent.natAbs = exponent.toNat := by omega
    have ⟨bits, enough, power, found, _, below⟩ := carries exponent.natAbs (by omega)
    have least : significand ≤ min (10 ^ 17) (ceiling / 10 ^ exponent.natAbs) := by
      rw [Nat.le_min, same]
      exact ⟨few, (Nat.le_div_iff_mul_le (Nat.pow_pos (by decide))).mpr bounded⟩
    have lifted := rounded _ _ bits (Nat.le_trans least enough)
    rw [found, Option.bind_some]
    apply Binary64.exists_multiply_eq
    calc magnitude.units * power.units
        ≤ (roof exponent.natAbs).1 * 2 ^ (roof exponent.natAbs).2 * unity * power.units :=
          Nat.mul_le_mul_right _ lifted
      _ = (roof exponent.natAbs).1 * 2 ^ (roof exponent.natAbs).2 * power.units * unity :=
          Nat.mul_right_comm _ _ _
      _ < limit * unity := Nat.mul_lt_mul_of_pos_right below Binary64.unity_pos
  next high =>
    -- Only zero can be written with so high an exponent.
    have beyond : ceiling < 10 ^ exponent.toNat :=
      lt_ten_pow 309 ceiling_lt (by omega)
    have zero : significand = 0 := by
      by_contra nonzero
      have positive := Nat.pos_of_ne_zero nonzero
      exact absurd (Nat.lt_of_lt_of_le beyond (Nat.le_trans (Nat.le_mul_of_pos_left _ positive)
        bounded)) (Nat.lt_irrefl _)
    have none : magnitude.units = 0 := by
      have least := rounded 0 0 (Nat.zero_le _) (by omega)
      omega
    have isZero : magnitude.isZero = true := by
      have product := Nat.mul_eq_zero.mp none
      rw [Binary64.isZero, beq_iff_eq]
      exact product.resolve_right (Nat.ne_of_gt (Nat.two_pow_pos _))
    rw [if_pos isZero]
    exact ⟨magnitude, rfl, finite⟩

/-- A finite number is scaled to a finite one, if to any. -/
theorem isFinite_of_scale (fuel : Nat) {magnitude scaled : Binary64}
    (finite : magnitude.isFinite = true) {exponent : Int}
    (found : scale fuel magnitude exponent = some scaled) : scaled.isFinite = true := by
  induction fuel generalizing magnitude exponent with
  | zero =>
      cases found
      exact Binary64.isFinite_zero false
  | succ fuel induction =>
      have quotient : ∀ {low : Nat}, low ≤ 308 → ∀ {result : Binary64},
          ((powerOfTen low).bind magnitude.divide) = some result → result.isFinite = true := by
        intro low bounded result divided
        rcases exists_powerOfTen_eq bounded with ⟨power, known, notBelow⟩
        rcases Binary64.exists_divide_eq finite notBelow with ⟨expected, same, expectedFinite⟩
        rw [known, Option.bind_some, same, Option.some.injEq] at divided
        exact divided ▸ expectedFinite
      rw [scale] at found
      split at found
      next low =>
        split at found
        · rcases Option.bind_eq_some_iff.mp found with ⟨power, _, multiplied⟩
          exact Binary64.isFinite_of_multiply multiplied
        · exact quotient low found
      next high =>
        split at found
        · cases found
          exact finite
        · split at found
          · cases found
          · rcases Option.bind_eq_some_iff.mp found with ⟨reduced, divided, later⟩
            exact induction (quotient (Nat.le_refl 308) divided) later

/-! Values -/

private theorem below_limit : 10 ^ 17 * unity < limit := by
  decide +kernel

private theorem floatValue_eq (negative : Bool) (significand : Nat) (exponent : Int) :
    floatValue negative significand exponent =
      ((Binary64.ofInt significand).bind fun magnitude => scale 3 magnitude exponent).map
        fun scaled => float (if negative then scaled.negate else scaled) := by
  rw [floatValue]
  cases Binary64.ofInt significand with
  | none => rfl
  | some magnitude =>
      show (scale 3 magnitude exponent).bind _ = (scale 3 magnitude exponent).map _
      cases scale 3 magnitude exponent <;> rfl

/-- No other values are read than finite ones. -/
theorem exists_float_of_floatValue {negative : Bool} {significand : Nat} {exponent : Int}
    {value : Json} (found : floatValue negative significand exponent = some value) :
    ∃ number : Binary64, value = float number ∧ number.isFinite = true := by
  rw [floatValue_eq] at found
  rcases Option.map_eq_some_iff.mp found with ⟨scaled, scaledFound, rfl⟩
  rcases Option.bind_eq_some_iff.mp scaledFound with ⟨magnitude, rounded, lifted⟩
  have finite := isFinite_of_scale 3 (Binary64.isFinite_of_ofRatio Nat.one_pos rounded) lifted
  refine ⟨_, rfl, ?_⟩
  cases negative <;> simp [finite]

/-- A significand of 17 digits with a power of ten that does not lift it beyond the ceiling has a
finite value. -/
theorem exists_floatValue_eq {significand : Nat} (few : significand ≤ 10 ^ 17) {exponent : Int}
    (bounded : exponent ≤ 0 ∨ significand * 10 ^ exponent.toNat ≤ ceiling) (negative : Bool) :
    ∃ value, floatValue negative significand exponent = some (float value) ∧
      value.isFinite = true := by
  have below := Nat.lt_of_le_of_lt (Nat.mul_le_mul_right unity few) below_limit
  rcases Binary64.exists_ofInt_eq below with ⟨magnitude, rounded, finite, close⟩
  have scaled : ∃ scaled, scale 3 magnitude exponent = some scaled ∧ scaled.isFinite = true := by
    by_cases down : exponent ≤ 0
    · exact exists_scale_eq_of_nonpos 3 finite down
    · exact exists_scale_eq_of_le few (by omega) (bounded.resolve_left down) 2 finite close
  rcases scaled with ⟨scaled, found, scaledFinite⟩
  refine ⟨if negative then scaled.negate else scaled, ?_, ?_⟩
  · rw [floatValue_eq, rounded, Option.bind_some, found, Option.map_some]
  · cases negative <;> simp [scaledFinite]

private theorem scale_greatest :
    ((Binary64.ofInt (17976931348623157 : Nat)).bind fun magnitude => scale 3 magnitude 292) =
      some greatest := by
  decide +kernel

/-- So has the decimal of the greatest number. -/
theorem exists_floatValue_greatest_eq (negative : Bool) :
    ∃ value, floatValue negative 17976931348623157 292 = some (float value) ∧
      value.isFinite = true := by
  have finite : greatest.isFinite = true := by decide
  refine ⟨if negative then greatest.negate else greatest, ?_, ?_⟩
  · rw [floatValue_eq, scale_greatest, Option.map_some]
  · cases negative <;> simp [finite]

/-! The numeral of a decimal -/

/-- The exponent of the first digit. -/
def leading (decimal : Decimal) : Int :=
  decimal.exponent + ((Nat.toDigits 10 decimal.digits).length : Int) - 1

/-- The numeral that a decimal is written as. -/
def ofDecimal (negative : Bool) (decimal : Decimal) : Numeral :=
  let digits := Nat.toDigits 10 decimal.digits
  if -5 ≤ leading decimal ∧ leading decimal ≤ 15 then
    if 0 ≤ decimal.exponent then
      ⟨negative, digits ++ List.replicate decimal.exponent.toNat '0', ['0'], none, true⟩
    else if 0 ≤ leading decimal then
      let whole := (leading decimal).toNat + 1
      ⟨negative, digits.take whole, digits.drop whole, none, true⟩
    else
      ⟨negative, ['0'], List.replicate (-leading decimal - 1).toNat '0' ++ digits, none, true⟩
  else
    ⟨negative, digits.take 1, digits.drop 1, some (leading decimal), !(digits.drop 1).isEmpty⟩

theorem spell_ofDecimal (negative : Bool) (decimal : Decimal) :
    (ofDecimal negative decimal.normalize).spell =
      (if negative then ['-'] else []) ++ decimal.write .plain := by
  have positional : (FloatFormat.plain.lowestPositional ≤ leading decimal.normalize &&
      leading decimal.normalize ≤ FloatFormat.plain.highestPositional) =
      decide (-5 ≤ leading decimal.normalize ∧ leading decimal.normalize ≤ 15) := by
    rw [Bool.decide_and]
    rfl
  have first : decimal.normalize.exponent +
      ((Nat.toDigits 10 decimal.normalize.digits).length : Int) - 1 =
      leading decimal.normalize := rfl
  simp only [Decimal.write, first, positional, ofDecimal, decide_eq_true_eq, ge_iff_le]
  split
  · split
    · simp [spell, fractionText, exponentText]
    · split
      · simp [spell, fractionText, exponentText]
      · simp [spell, fractionText, exponentText]
  · cases digits : Nat.toDigits 10 decimal.normalize.digits with
    | nil => exact absurd digits Nat.toDigits_ne_nil
    | cons first rest => cases rest <;> simp [spell, fractionText, exponentText]

private theorem isDigit_of_mem_zeros {count : Nat} {char : Char}
    (member : char ∈ List.replicate count '0') : char.isDigit = true := by
  rw [List.eq_of_mem_replicate member]
  decide

private theorem digits_eq_zero_of_head {decimal : Decimal}
    (headed : (Nat.toDigits 10 decimal.digits).head? = some '0') : decimal.digits = 0 := by
  by_contra nonzero
  exact head_toDigits_ne_zero (Nat.pos_of_ne_zero nonzero) headed

theorem isWellFormed_ofDecimal (negative : Bool) {decimal : Decimal}
    (zero : decimal.digits = 0 → decimal.exponent = 0) :
    (ofDecimal negative decimal).IsWellFormed := by
  have some : 0 < (Nat.toDigits 10 decimal.digits).length :=
    List.length_pos_iff.mpr Nat.toDigits_ne_nil
  have areDigits : ∀ char ∈ Nat.toDigits 10 decimal.digits, char.isDigit = true :=
    fun _ => isDigit_of_mem
  simp only [ofDecimal]
  split
  · split
    next whole =>
      refine ⟨?_, by simp [Nat.toDigits_ne_nil], ?_, by simp, rfl⟩
      · intro char member
        exact (List.mem_append.mp member).elim (areDigits char) isDigit_of_mem_zeros
      · intro headed
        have none := digits_eq_zero_of_head (by simpa [Nat.toDigits_ne_nil] using headed)
        rw [none, zero none]
        rfl
    next fractional =>
      split
      next inside =>
        have behind : (leading decimal).toNat + 1 < (Nat.toDigits 10 decimal.digits).length := by
          rw [leading] at inside ⊢
          omega
        refine ⟨fun char member => areDigits char (List.mem_of_mem_take member), ?_, ?_,
          fun char member => areDigits char (List.mem_of_mem_drop member), ?_⟩
        · simp [Nat.toDigits_ne_nil]
        · intro headed
          rw [List.head?_take] at headed
          have none := digits_eq_zero_of_head (by simpa using headed)
          exact absurd (Int.le_of_eq (zero none).symm) fractional
        · simpa using behind
      next =>
        refine ⟨by simp, by simp, fun _ => rfl, ?_, by simp [Nat.toDigits_ne_nil]⟩
        intro char member
        exact (List.mem_append.mp member).elim isDigit_of_mem_zeros (areDigits char)
  · refine ⟨fun char member => areDigits char (List.mem_of_mem_take member), ?_, ?_,
      fun char member => areDigits char (List.mem_of_mem_drop member), rfl⟩
    · simp [Nat.toDigits_ne_nil]
    · cases Nat.toDigits 10 decimal.digits with
      | nil => simp
      | cons first rest => simp

private theorem digitsValue_append_zeros (digits : List Char) (count : Nat) :
    digitsValue (digits ++ List.replicate count '0') = digitsValue digits * 10 ^ count := by
  induction count with
  | zero => simp
  | succ count induction =>
      have last : digitsValue (digits ++ List.replicate count '0' ++ ['0']) =
          10 * digitsValue (digits ++ List.replicate count '0') := by
        simp [digitsValue, digitValue]
      rw [List.replicate_succ', ← List.append_assoc, last, induction, Nat.pow_succ]
      ac_rfl

private theorem digitsValue_zeros_append (count : Nat) (digits : List Char) :
    digitsValue (List.replicate count '0' ++ digits) = digitsValue digits := by
  induction count with
  | zero => rfl
  | succ count induction =>
      rw [← induction, List.replicate_succ]
      rfl

/-- The value of the numeral is a significand of 17 digits that is scaled down, or the digits of the
decimal with its exponent. -/
def Stands (numeral : Numeral) (decimal : Decimal) : Prop :=
  ∃ significand exponent, significand ≤ 10 ^ 17 ∧
    (exponent ≤ 0 ∨ significand = decimal.digits ∧ exponent = decimal.exponent) ∧
    numeral.value? = floatValue numeral.negative significand exponent

private theorem stands_of_value {numeral : Numeral} {decimal : Decimal}
    (approximate : numeral.pointed = true ∨ numeral.exponent.isSome = true) {significand : Nat}
    (value : digitsValue (numeral.whole ++ numeral.fraction) = significand)
    (few : significand ≤ 10 ^ 17)
    (scaled : numeral.exponent = none ∨ significand = decimal.digits ∧
      numeral.exponent.getD 0 - (numeral.fraction.length : Int) = decimal.exponent) :
    Stands numeral decimal := by
  have fits : digitsValue (numeral.whole ++ numeral.fraction) ≤ greatestSignificand := by
    rw [value, greatestSignificand_eq]
    omega
  refine ⟨significand, _, few, ?_, value ▸ value?_of_fits approximate fits⟩
  rcases scaled with none | same
  · rw [none]
    exact .inl (Int.sub_nonpos_of_le (Int.natCast_nonneg _))
  · exact .inr same

theorem stands_ofDecimal (negative : Bool) {decimal : Decimal} (few : decimal.digits ≤ 10 ^ 17) :
    Stands (ofDecimal negative decimal) decimal := by
  have digits := digitsValue_toDigits decimal.digits
  simp only [ofDecimal]
  split
  next positional =>
    split
    next whole =>
      have value : digitsValue (Nat.toDigits 10 decimal.digits ++
          List.replicate decimal.exponent.toNat '0' ++ ['0']) =
          decimal.digits * 10 ^ (decimal.exponent.toNat + 1) := by
        rw [List.append_assoc, ← List.replicate_succ', digitsValue_append_zeros, digits]
      refine stands_of_value (.inl rfl) value ?_ (.inl rfl)
      rw [leading, ← Binary64.digitCount] at positional
      calc decimal.digits * 10 ^ (decimal.exponent.toNat + 1)
          ≤ 10 ^ Binary64.digitCount decimal.digits * 10 ^ (decimal.exponent.toNat + 1) :=
            Nat.mul_le_mul_right _ (Nat.le_of_lt (Binary64.lt_ten_pow_digitCount _))
        _ = 10 ^ (Binary64.digitCount decimal.digits + (decimal.exponent.toNat + 1)) :=
            (Nat.pow_add 10 _ _).symm
        _ ≤ 10 ^ 17 := Nat.pow_le_pow_right (by decide) (by omega)
    next fractional =>
      split
      · exact stands_of_value (.inl rfl) (by rw [List.take_append_drop, digits]) few (.inl rfl)
      · have value : digitsValue (['0'] ++
            (List.replicate (-leading decimal - 1).toNat '0' ++ Nat.toDigits 10 decimal.digits)) =
            decimal.digits :=
          (digitsValue_zeros_append ((-leading decimal - 1).toNat + 1) _).trans digits
        exact stands_of_value (.inl rfl) value few (.inl rfl)
  next scientific =>
    have exponent : leading decimal - (((Nat.toDigits 10 decimal.digits).drop 1).length : Int) =
        decimal.exponent := by
      have some : 0 < (Nat.toDigits 10 decimal.digits).length :=
        List.length_pos_iff.mpr Nat.toDigits_ne_nil
      rw [leading, List.length_drop]
      omega
    exact stands_of_value (.inr rfl) (by rw [List.take_append_drop, digits]) few
      (.inr ⟨rfl, exponent⟩)

/-! Numbers -/

/-- A numeral that stands for the decimal of a finite number has a finite value. -/
private theorem exists_value?_eq {number : Binary64} (finite : number.isFinite = true)
    {numeral : Numeral} (stands : Stands numeral number.shortest.normalize) :
    ∃ value, numeral.value? = some (float value) ∧ value.isFinite = true := by
  rcases stands with ⟨significand, exponent, few, scaled, value⟩
  rw [value]
  by_cases last : number.significand = greatest.significand ∧ number.power = greatest.power
  · rcases scaled with down | ⟨rfl, rfl⟩
    · exact exists_floatValue_eq few (.inl down) numeral.negative
    · rw [Binary64.shortest_congr last.1 last.2, Binary64.shortest_greatest]
      exact exists_floatValue_greatest_eq numeral.negative
  · refine exists_floatValue_eq few ?_ numeral.negative
    by_cases down : exponent ≤ 0
    · exact .inl down
    · rcases scaled.resolve_left down with ⟨rfl, rfl⟩
      exact .inr (Binary64.magnitude_shortest_le finite last (by omega))

/-- The numeral that a number is written as. -/
def ofNumber (number : Binary64) : Numeral :=
  ofDecimal number.isNegative (if number.isZero then ⟨0, 0⟩ else number.shortest.normalize)

theorem spell_ofNumber (number : Binary64) : (ofNumber number).spell = number.write .plain := by
  rw [ofNumber, Binary64.write]
  split
  · cases number.isNegative <;> decide
  · rw [spell_ofDecimal]
    cases number.isNegative <;> rfl

theorem isWellFormed_ofNumber (number : Binary64) : (ofNumber number).IsWellFormed := by
  apply isWellFormed_ofDecimal
  split
  · exact fun _ => rfl
  · exact number.shortest_within.normalize.zero

theorem exists_value?_ofNumber_eq {number : Binary64} (finite : number.isFinite = true) :
    ∃ value, (ofNumber number).value? = some (float value) ∧ value.isFinite = true := by
  rw [ofNumber]
  split
  · have zero : Stands (ofDecimal number.isNegative ⟨0, 0⟩) ⟨0, 0⟩ :=
      stands_ofDecimal number.isNegative (Nat.zero_le _)
    rcases zero with ⟨significand, exponent, few, scaled, value⟩
    rw [value]
    refine exists_floatValue_eq few (scaled.imp_right fun same => ?_) _
    rw [same.1, Nat.zero_mul]
    exact Nat.zero_le _
  · exact exists_value?_eq finite (stands_ofDecimal _ number.shortest_within.normalize.digits)

end Numeral

/-- The number that is read from the text of a number. -/
def rereadNumber (number : Number.Binary64) : Number.Binary64 :=
  match (Numeral.ofNumber number).value? with
  | some (float value) => value
  | _ => number

theorem scan_writeNumber {number : Number.Binary64} (finite : number.isFinite = true)
    {rest : List Char} (ends : EndsNumeral rest) :
    (Numeral.scan (number.write .plain ++ rest)).bind
      (fun (numeral, rest) => numeral.value?.map fun read => (Token.number read, rest)) =
      some (Token.number (float (rereadNumber number)), rest) := by
  rcases Numeral.exists_value?_ofNumber_eq finite with ⟨value, read, _⟩
  have scanned := Numeral.scan_spell ends (Numeral.isWellFormed_ofNumber number)
  rw [Numeral.spell_ofNumber] at scanned
  simp only [scanned, Option.bind_some, read, Option.map_some, rereadNumber]

theorem exists_writeNumber_eq (number : Number.Binary64) :
    ∃ head tail, number.write .plain = head :: tail ∧ (head.isDigit = true ∨ head = '-') := by
  rw [← Numeral.spell_ofNumber]
  exact Numeral.exists_spell_eq (Numeral.isWellFormed_ofNumber number)

theorem isFinite_rereadNumber {number : Number.Binary64} (finite : number.isFinite = true) :
    (rereadNumber number).isFinite = true := by
  rcases Numeral.exists_value?_ofNumber_eq finite with ⟨value, read, valueFinite⟩
  simpa only [rereadNumber, read] using valueFinite

end SealedCatalog.Json
