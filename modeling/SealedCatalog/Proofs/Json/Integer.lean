import SealedCatalog.Json.Token
import SealedCatalog.Json.Writer

/-! Integers that fit into 64 bits are read back from their digits, whatever follows that cannot
continue a numeral. -/

namespace SealedCatalog.Json

/-- An integer that a numeral without point and exponent may denote. -/
def IsStorable (value : Int) : Prop :=
  leastInt ≤ value ∧ value ≤ greatestInt

instance : DecidablePred IsStorable := fun value =>
  inferInstanceAs (Decidable (leastInt ≤ value ∧ value ≤ greatestInt))

/-- No numeral can be continued by the text. -/
def EndsNumeral (rest : List Char) : Prop :=
  ∀ char ∈ rest.head?, char.isDigit = false ∧ char ≠ '.' ∧ char ≠ 'e' ∧ char ≠ 'E'

/-- Digits end before the text. -/
def EndsDigits (rest : List Char) : Prop :=
  ∀ char ∈ rest.head?, char.isDigit = false

theorem EndsNumeral.endsDigits {rest : List Char} (ends : EndsNumeral rest) : EndsDigits rest :=
  fun char member => (ends char member).1

theorem leastInt_eq : leastInt = -9223372036854775808 := by decide

theorem greatestInt_eq : greatestInt = 18446744073709551615 := by decide

namespace Numeral

theorem greatestSignificand_eq : greatestSignificand = 18446744073709551615 := by decide

theorem digitsValue_toDigits (magnitude : Nat) :
    digitsValue (Nat.toDigits 10 magnitude) = magnitude :=
  Nat.ofDigitChars_ten_toDigits

theorem isDigit_of_mem {magnitude : Nat} {char : Char}
    (member : char ∈ Nat.toDigits 10 magnitude) : char.isDigit = true :=
  Nat.isDigit_of_mem_toDigits (by decide) (by decide) member

theorem scanDigits_append {digits rest : List Char}
    (areDigits : ∀ char ∈ digits, char.isDigit = true) (ends : EndsDigits rest) :
    scanDigits (digits ++ rest) = (digits, rest) := by
  have stopped : rest.takeWhile Char.isDigit = [] ∧ rest.dropWhile Char.isDigit = rest := by
    cases rest with
    | nil => simp
    | cons head tail => simp [ends head rfl]
  rw [scanDigits, List.takeWhile_append_of_pos areDigits, List.dropWhile_append_of_pos areDigits,
    stopped.1, stopped.2, List.append_nil]

/-- Only zero begins with a zero. -/
theorem head_toDigits_ne_zero {magnitude : Nat} (positive : 0 < magnitude) :
    (Nat.toDigits 10 magnitude).head? ≠ some '0' := by
  induction magnitude using Nat.strongRecOn with
  | _ magnitude induction =>
      by_cases small : magnitude < 10
      · rw [Nat.toDigits_of_lt_base small]
        have : ∀ digit < 10, 0 < digit → [Nat.digitChar digit].head? ≠ some '0' := by decide
        exact this magnitude small positive
      · have earlier := induction (magnitude / 10) (by omega) (by omega)
        rw [Nat.toDigits_of_base_le (by decide) (by omega)]
        cases leading : Nat.toDigits 10 (magnitude / 10) with
        | nil => exact absurd leading Nat.toDigits_ne_nil
        | cons head tail => simpa [leading] using earlier

/-- Digits before the point begin with no zero unless it is the only one. -/
theorem scanWhole_append {digits rest : List Char}
    (areDigits : ∀ char ∈ digits, char.isDigit = true) (nonempty : digits ≠ [])
    (headed : digits.head? = some '0' → digits = ['0']) (ends : EndsDigits rest) :
    scanWhole (digits ++ rest) = some (digits, rest) := by
  rw [scanWhole, scanDigits_append areDigits ends]
  split
  next empty => exact absurd (Prod.mk.inj empty).1 nonempty
  next leading =>
    have same := (Prod.mk.inj leading).1
    rw [same] at headed
    cases headed rfl
  · rfl

theorem scanWhole_toDigits (magnitude : Nat) {rest : List Char} (ends : EndsNumeral rest) :
    scanWhole (Nat.toDigits 10 magnitude ++ rest) =
      some (Nat.toDigits 10 magnitude, rest) := by
  refine scanWhole_append (fun _ => isDigit_of_mem) Nat.toDigits_ne_nil ?_ ends.endsDigits
  intro zero
  cases magnitude with
  | zero => rfl
  | succ predecessor => exact absurd zero (head_toDigits_ne_zero (Nat.succ_pos predecessor))

theorem scanFraction_of_ends {rest : List Char} (ends : EndsNumeral rest) :
    scanFraction rest = some ([], false, rest) := by
  unfold scanFraction
  split
  · exact absurd rfl (ends '.' rfl).2.1
  · rfl

theorem scanExponent_of_ends {rest : List Char} (ends : EndsNumeral rest) :
    scanExponent rest = some (none, rest) := by
  unfold scanExponent
  split
  case h_7 => rfl
  case h_1 | h_2 | h_3 => exact absurd rfl (ends 'e' rfl).2.2.1
  case h_4 | h_5 | h_6 => exact absurd rfl (ends 'E' rfl).2.2.2

/-- The numeral of the digits of a magnitude, after a minus sign or not. -/
def ofMagnitude (negative : Bool) (magnitude : Nat) : Numeral :=
  ⟨negative, Nat.toDigits 10 magnitude, [], none, false⟩

theorem scan_toDigits (magnitude : Nat) {rest : List Char} (ends : EndsNumeral rest) :
    scan (Nat.toDigits 10 magnitude ++ rest) = some (ofMagnitude false magnitude, rest) := by
  have unsigned : ((Nat.toDigits 10 magnitude ++ rest).head? == some '-') = false := by
    cases leading : Nat.toDigits 10 magnitude with
    | nil => exact absurd leading Nat.toDigits_ne_nil
    | cons head tail =>
        have digit := isDigit_of_mem (leading ▸ List.mem_cons_self : head ∈ _)
        simp only [List.cons_append, List.head?_cons, beq_eq_false_iff_ne, ne_eq,
          Option.some.injEq]
        rintro rfl
        exact absurd digit (by decide)
  simp only [scan, unsigned, Bool.false_eq_true, if_false, scanWhole_toDigits magnitude ends,
    scanFraction_of_ends ends, scanExponent_of_ends ends, Option.bind_eq_bind, Option.bind_some]
  rfl

theorem scan_minus_toDigits (magnitude : Nat) {rest : List Char} (ends : EndsNumeral rest) :
    scan ('-' :: (Nat.toDigits 10 magnitude ++ rest)) =
      some (ofMagnitude true magnitude, rest) := by
  simp [scan, scanWhole_toDigits magnitude ends, scanFraction_of_ends ends,
    scanExponent_of_ends ends, ofMagnitude]

theorem le_foldl (digits : List Char) (significand : Nat) :
    significand ≤
      digits.foldl (fun value digit => 10 * value + digitValue digit) significand := by
  induction digits generalizing significand with
  | nil => exact Nat.le_refl _
  | cons digit rest induction =>
      have later := induction (10 * significand + digitValue digit)
      simp only [List.foldl_cons]
      omega

/-- Digits whose value fits are all gathered. -/
theorem gather_of_le {digits : List Char} {significand : Nat}
    (fits : digits.foldl (fun value digit => 10 * value + digitValue digit) significand ≤
      greatestSignificand) :
    gather significand digits =
      (digits.foldl (fun value digit => 10 * value + digitValue digit) significand, []) := by
  induction digits generalizing significand with
  | nil => rfl
  | cons digit rest induction =>
      simp only [List.foldl_cons] at fits ⊢
      have extended := Nat.le_trans (le_foldl rest (10 * significand + digitValue digit)) fits
      rw [gather, if_pos extended, induction fits]

theorem gather_toDigits {magnitude : Nat} (fits : magnitude ≤ greatestSignificand) :
    gather 0 (Nat.toDigits 10 magnitude) = (magnitude, []) := by
  have value := digitsValue_toDigits magnitude
  rw [digitsValue] at value
  rw [gather_of_le (by rw [value]; exact fits), value]

theorem value?_ofMagnitude_false {magnitude : Nat} (fits : magnitude ≤ greatestSignificand) :
    (ofMagnitude false magnitude).value? = some (int magnitude) := by
  simp [value?, ofMagnitude, gather_toDigits fits]

theorem value?_ofMagnitude_true {magnitude : Nat} (positive : 0 < magnitude)
    (fits : leastInt ≤ -(magnitude : Int)) :
    (ofMagnitude true magnitude).value? = some (int (-magnitude)) := by
  have bounded : magnitude ≤ greatestSignificand := by
    rw [leastInt_eq] at fits
    rw [greatestSignificand_eq]
    omega
  have nonzero : magnitude ≠ 0 := by omega
  have notBelow : ¬ -(magnitude : Int) < leastInt := by omega
  simp [value?, ofMagnitude, gather_toDigits bounded, nonzero, notBelow]

end Numeral

theorem scan_writeInt {value : Int} (storable : IsStorable value) {rest : List Char}
    (ends : EndsNumeral rest) :
    (Numeral.scan (writeInt value ++ rest)).bind
      (fun (numeral, rest) => numeral.value?.map fun read => (Token.number read, rest)) =
      some (Token.number (int value), rest) := by
  rcases storable with ⟨above, below⟩
  cases value with
  | ofNat magnitude =>
      have fits : magnitude ≤ Numeral.greatestSignificand := by
        rw [greatestInt_eq] at below
        rw [Numeral.greatestSignificand_eq]
        exact Int.ofNat_le.mp below
      simp [writeInt, Numeral.scan_toDigits magnitude ends,
        Numeral.value?_ofMagnitude_false fits]
  | negSucc predecessor =>
      have same : Int.negSucc predecessor = -((predecessor + 1 : Nat) : Int) := rfl
      have scanned := Numeral.scan_minus_toDigits (predecessor + 1) ends
      have read := Numeral.value?_ofMagnitude_true (Nat.succ_pos predecessor) (same ▸ above)
      simp only [writeInt, List.cons_append, scanned, Option.bind_some, read, Option.map_some,
        same]

end SealedCatalog.Json
