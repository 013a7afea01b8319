import Mathlib.Data.String.Basic
import SealedCatalog.SortKey.Packed

/-! Packed numbers as texts. Digits of one length are in the order of the numbers they denote, so
packed integers are in the order of the integers, those beyond the greatest magnitude counting as
it. -/

namespace SealedCatalog.SortKey

/-! ## Rows of digits -/

/-- All characters of the text are digits, and none of another script. -/
def AreDigits (text : List Char) : Prop :=
  ∀ char ∈ text, char.isDigit = true

instance : DecidablePred AreDigits := fun text =>
  decidable_of_iff (text.all Char.isDigit = true) List.all_eq_true

theorem areDigits_cons_iff {digit : Char} {rest : List Char} :
    AreDigits (digit :: rest) ↔ digit.isDigit = true ∧ AreDigits rest :=
  List.forall_mem_cons

theorem bounds_of_isDigit {digit : Char} (isDigit : digit.isDigit = true) :
    48 ≤ digit.toNat ∧ digit.toNat ≤ 57 :=
  Char.isDigit_iff_toNat.mp isDigit

theorem ofDigitChars_cons_eq (digit : Char) (rest : List Char) :
    Nat.ofDigitChars 10 (digit :: rest) 0 =
      10 ^ rest.length * (digit.toNat - 48) + Nat.ofDigitChars 10 rest 0 := by
  rw [Nat.ofDigitChars_cons, Nat.ofDigitChars_eq_ofDigitChars_zero, Nat.mul_zero, Nat.zero_add]
  rfl

/-- A rest below the unit does not make up for a lower count of units. -/
theorem mul_add_lt_mul_add {unit low high rest : Nat} (lower : low < high) (below : rest < unit)
    (others : Nat) : unit * low + rest < unit * high + others :=
  calc unit * low + rest
    _ < unit * low + unit := by omega
    _ = unit * (low + 1) := (Nat.mul_succ _ _).symm
    _ ≤ unit * high := Nat.mul_le_mul_left unit lower
    _ ≤ unit * high + others := Nat.le_add_right _ _

theorem ofDigitChars_lt_pow {digits : List Char} (areDigits : AreDigits digits) :
    Nat.ofDigitChars 10 digits 0 < 10 ^ digits.length := by
  induction digits with
  | nil => simp
  | cons digit rest induction =>
      have ⟨isDigit, others⟩ := areDigits_cons_iff.mp areDigits
      have bound := (bounds_of_isDigit isDigit).2
      have small : digit.toNat - 48 < 10 := by omega
      rw [ofDigitChars_cons_eq, List.length_cons, Nat.pow_succ]
      exact mul_add_lt_mul_add small (induction others) 0

/-- Whatever begins with a digit that is not zero is at least a power of ten. -/
theorem pow_le_ofDigitChars {digit : Char} {rest : List Char} (isDigit : digit.isDigit = true)
    (significant : digit ≠ '0') :
    10 ^ rest.length ≤ Nat.ofDigitChars 10 (digit :: rest) 0 := by
  have bound := (bounds_of_isDigit isDigit).1
  have positive : digit.toNat ≠ 48 := fun zero => significant (Char.toNat_inj.mp zero)
  rw [ofDigitChars_cons_eq]
  exact Nat.le_add_right_of_le (Nat.le_mul_of_pos_right _ (by omega))

theorem ofDigitChars_dropWhile_zero (digits : List Char) :
    Nat.ofDigitChars 10 (digits.dropWhile (· == '0')) 0 = Nat.ofDigitChars 10 digits 0 := by
  induction digits with
  | nil => rfl
  | cons digit rest induction =>
      by_cases zero : digit = '0'
      · subst zero
        rw [List.dropWhile_cons_of_pos (by decide), induction, ofDigitChars_cons_eq]
        simp
      · rw [List.dropWhile_cons_of_neg (by simpa using zero)]

/-- The order of digits is decided where the first ones differ, since the rest of the lesser number
cannot make up for it. -/
theorem lt_iff_ofDigitChars_lt {left right : List Char} (leftDigits : AreDigits left)
    (rightDigits : AreDigits right) (sameLength : left.length = right.length) :
    left < right ↔ Nat.ofDigitChars 10 left 0 < Nat.ofDigitChars 10 right 0 := by
  induction left generalizing right with
  | nil =>
      rw [List.eq_nil_of_length_eq_zero sameLength.symm]
      simp
  | cons digit rest induction =>
      cases right with
      | nil => simp at sameLength
      | cons other others =>
          have ⟨isDigit, restDigits⟩ := areDigits_cons_iff.mp leftDigits
          have ⟨otherDigit, othersDigits⟩ := areDigits_cons_iff.mp rightDigits
          have length : rest.length = others.length := Nat.succ.inj sameLength
          have leftBelow := ofDigitChars_lt_pow restDigits
          have rightBelow := ofDigitChars_lt_pow othersDigits
          have digitLeast := (bounds_of_isDigit isDigit).1
          have otherLeast := (bounds_of_isDigit otherDigit).1
          rw [List.cons_lt_cons_iff, ofDigitChars_cons_eq, ofDigitChars_cons_eq,
            induction restDigits othersDigits length, length]
          rw [length] at leftBelow
          rcases lt_trichotomy digit other with less | same | greater
          · have fewer : digit.toNat - 48 < other.toNat - 48 := by
              have below : digit.toNat < other.toNat := less
              omega
            exact iff_of_true (.inl less) (mul_add_lt_mul_add fewer leftBelow _)
          · subst same
            simp
          · have more : other.toNat - 48 < digit.toNat - 48 := by
              have above : other.toNat < digit.toNat := greater
              omega
            have notBelow : ¬ (digit < other ∨ digit = other ∧
                Nat.ofDigitChars 10 rest 0 < Nat.ofDigitChars 10 others 0) := by
              rintro (less | ⟨same, _⟩)
              · exact less.not_gt greater
              · exact greater.ne' same
            exact iff_of_false notBelow (mul_add_lt_mul_add more rightBelow _).not_gt

/-! ## Padded numbers -/

theorem areDigits_padded (length value : Nat) : AreDigits (padded length value) := by
  intro char member
  rcases List.mem_append.mp member with zero | digit
  · rw [(List.mem_replicate.mp zero).2]
    decide
  · exact Nat.isDigit_of_mem_toDigits (by decide) (by decide) digit

theorem ofDigitChars_padded (length value : Nat) :
    Nat.ofDigitChars 10 (padded length value) 0 = value := by
  rw [padded, Nat.ofDigitChars_append, Nat.ofDigitChars_replicate_zero, Nat.mul_zero,
    Nat.ofDigitChars_ten_toDigits]

theorem length_padded {length value : Nat} (positive : 0 < length) (fits : value < 10 ^ length) :
    (padded length value).length = length := by
  have short := (Nat.length_toDigits_le_iff (by decide) positive).mpr fits
  rw [padded, List.length_append, List.length_replicate]
  omega

/-- Padded to one length, numbers are in order as texts. -/
theorem padded_lt_padded_iff {length left right : Nat} (positive : 0 < length)
    (leftFits : left < 10 ^ length) (rightFits : right < 10 ^ length) :
    padded length left < padded length right ↔ left < right := by
  rw [lt_iff_ofDigitChars_lt (areDigits_padded _ _) (areDigits_padded _ _)
    ((length_padded positive leftFits).trans (length_padded positive rightFits).symm),
    ofDigitChars_padded, ofDigitChars_padded]

/-! ## Packed integers -/

/-- The nearest integer whose magnitude is not beyond the greatest one. -/
def clamped (value : Int) : Int :=
  max (-greatestMagnitude) (min value greatestMagnitude)

theorem greatestMagnitude_eq : greatestMagnitude = 999999999999999999 := by decide

theorem clamped_natCast (value : Nat) : clamped value = (min value greatestMagnitude : Nat) := by
  unfold clamped
  omega

theorem toList_packInteger_of_nonneg {value : Int} (nonneg : 0 ≤ value) :
    (packInteger value).toList = padded (width + 1) (min value.natAbs greatestMagnitude) := by
  rw [packInteger, if_neg (by omega), String.toList_ofList]

theorem toList_packInteger_of_neg {value : Int} (negative : value < 0) :
    (packInteger value).toList =
      '-' :: padded width (greatestMagnitude - min value.natAbs greatestMagnitude) := by
  rw [packInteger, if_pos negative, String.toList_ofList]

/-- A minus stands before all digits. -/
theorem minus_lt_padded (text : List Char) (length value : Nat) :
    '-' :: text < padded length value := by
  cases written : padded length value with
  | nil =>
      have positive : 0 < (padded length value).length := by
        rw [padded, List.length_append]
        exact Nat.add_pos_right _ Nat.length_toDigits_pos
      simp [written] at positive
  | cons digit rest =>
      have isDigit : digit.isDigit = true :=
        areDigits_padded length value digit (by simp [written])
      have least := (bounds_of_isDigit isDigit).1
      have below : '-'.toNat < digit.toNat := Nat.lt_of_lt_of_le (by decide) least
      exact List.cons_lt_cons_iff.mpr (.inl below)

/-- Packed integers are in the order of the integers, which end at the greatest magnitude. -/
theorem packInteger_lt_packInteger_iff {left right : Int} :
    packInteger left < packInteger right ↔ clamped left < clamped right := by
  have fits : ∀ magnitude, min magnitude greatestMagnitude < 10 ^ (width + 1) := fun magnitude =>
    lt_of_le_of_lt (Nat.min_le_right _ _) (by decide)
  have lackFits : ∀ magnitude, greatestMagnitude - magnitude < 10 ^ width := fun magnitude =>
    lt_of_le_of_lt (Nat.sub_le _ _) (by decide)
  rw [String.lt_iff_toList_lt]
  unfold clamped
  by_cases leftSign : 0 ≤ left <;> by_cases rightSign : 0 ≤ right
  · rw [toList_packInteger_of_nonneg leftSign, toList_packInteger_of_nonneg rightSign,
      padded_lt_padded_iff (by decide) (fits _) (fits _)]
    omega
  · rw [toList_packInteger_of_nonneg leftSign, toList_packInteger_of_neg (by omega)]
    have above := minus_lt_padded
      (padded width (greatestMagnitude - min right.natAbs greatestMagnitude)) (width + 1)
      (min left.natAbs greatestMagnitude)
    exact iff_of_false above.not_gt (by omega)
  · rw [toList_packInteger_of_neg (by omega), toList_packInteger_of_nonneg rightSign]
    have positive : 0 < greatestMagnitude := by decide
    exact iff_of_true (minus_lt_padded _ _ _) (by omega)
  · rw [toList_packInteger_of_neg (by omega), toList_packInteger_of_neg (by omega),
      List.cons_lt_cons_iff, padded_lt_padded_iff (by decide) (lackFits _) (lackFits _)]
    simp only [lt_self_iff_false, true_and, false_or]
    omega

theorem packInteger_eq_packInteger_iff {left right : Int} :
    packInteger left = packInteger right ↔ clamped left = clamped right := by
  rw [eq_iff_le_not_lt, eq_iff_le_not_lt, ← not_lt, ← not_lt, packInteger_lt_packInteger_iff,
    packInteger_lt_packInteger_iff]

end SealedCatalog.SortKey
