import SealedCatalog.Number.Shortest
import SealedCatalog.Proofs.Json.Integer

/-! The numerals with a point or an exponent that are written are read back, whatever follows that
cannot continue a numeral. Their value is their digits with a power of ten. -/

namespace SealedCatalog.Json.Numeral

def exponentText : Option Int → List Char
  | none => []
  | some exponent => 'e' :: Number.signedDigits exponent

def fractionText (numeral : Numeral) : List Char :=
  if numeral.pointed then '.' :: numeral.fraction else []

/-- How a numeral is written. -/
def spell (numeral : Numeral) : List Char :=
  (if numeral.negative then ['-'] else []) ++
    (numeral.whole ++ (numeral.fractionText ++ exponentText numeral.exponent))

/-- The digits of the numeral are digits, and zeros stand neither before others nor in the place of
none. -/
structure IsWellFormed (numeral : Numeral) : Prop where
  whole : ∀ char ∈ numeral.whole, char.isDigit = true
  nonempty : numeral.whole ≠ []
  headed : numeral.whole.head? = some '0' → numeral.whole = ['0']
  fraction : ∀ char ∈ numeral.fraction, char.isDigit = true
  pointed : numeral.pointed = !numeral.fraction.isEmpty

theorem scanExponentDigits_toDigits (negative : Bool) (magnitude : Nat) {rest : List Char}
    (ends : EndsNumeral rest) :
    scanExponentDigits negative (Nat.toDigits 10 magnitude ++ rest) =
      some (some (if negative then -(magnitude : Int) else magnitude), rest) := by
  rw [scanExponentDigits, scanDigits_append (fun _ => isDigit_of_mem) ends.endsDigits]
  split
  next empty => exact absurd (Prod.mk.inj empty).1 Nat.toDigits_ne_nil
  next found =>
    cases found
    rw [digitsValue_toDigits]

theorem scanExponent_signedDigits (exponent : Int) {rest : List Char} (ends : EndsNumeral rest) :
    scanExponent ('e' :: (Number.signedDigits exponent ++ rest)) = some (some exponent, rest) := by
  by_cases negative : exponent < 0
  · have value : -(exponent.natAbs : Int) = exponent := by omega
    rw [Number.signedDigits, if_pos negative, List.cons_append]
    show scanExponentDigits true _ = _
    rw [scanExponentDigits_toDigits true _ ends, if_pos rfl, value]
  · have value : (exponent.natAbs : Int) = exponent := by omega
    rw [Number.signedDigits, if_neg negative, List.cons_append]
    show scanExponentDigits false _ = _
    rw [scanExponentDigits_toDigits false _ ends, if_neg Bool.false_ne_true, value]

theorem scanFraction_point {input after others : List Char} {first : Char}
    (scanned : scanDigits input = (first :: others, after)) :
    scanFraction ('.' :: input) = some (first :: others, true, after) := by
  simp only [scanFraction, scanned]

section Spelled

variable {rest : List Char} (ends : EndsNumeral rest)

include ends

private theorem scanExponent_exponentText (exponent : Option Int) :
    scanExponent (exponentText exponent ++ rest) = some (exponent, rest) := by
  cases exponent with
  | none => exact scanExponent_of_ends ends
  | some exponent => exact scanExponent_signedDigits exponent ends

private theorem head_exponentText (exponent : Option Int) :
    ∀ char ∈ (exponentText exponent ++ rest).head?, char.isDigit = false ∧ char ≠ '.' := by
  intro char member
  cases exponent with
  | none => exact ⟨(ends char member).1, (ends char member).2.1⟩
  | some exponent =>
      cases member
      decide

private theorem endsDigits_fractionText (numeral : Numeral) :
    EndsDigits (numeral.fractionText ++ (exponentText numeral.exponent ++ rest)) := by
  intro char member
  rw [fractionText] at member
  split at member
  · cases member
    decide
  · exact (head_exponentText ends numeral.exponent char member).1

variable {numeral : Numeral} (wellFormed : numeral.IsWellFormed)

include wellFormed

private theorem scanFraction_fractionText :
    scanFraction (numeral.fractionText ++ (exponentText numeral.exponent ++ rest)) =
      some (numeral.fraction, numeral.pointed, exponentText numeral.exponent ++ rest) := by
  have after := head_exponentText ends numeral.exponent
  have pointed := wellFormed.pointed
  cases digits : numeral.fraction with
  | nil =>
      rw [digits] at pointed
      rw [fractionText, pointed]
      show scanFraction (exponentText numeral.exponent ++ rest) = _
      unfold scanFraction
      split
      next other same =>
        rw [same] at after
        exact absurd rfl (after '.' rfl).2
      · rfl
  | cons first others =>
      rw [digits] at pointed
      have scanned := scanDigits_append wellFormed.fraction fun char member => (after char member).1
      rw [digits] at scanned
      rw [fractionText, pointed, digits]
      exact scanFraction_point scanned

/-- A numeral is read off its text. -/
theorem scan_spell : scan (numeral.spell ++ rest) = some (numeral, rest) := by
  have whole := scanWhole_append wellFormed.whole wellFormed.nonempty wellFormed.headed
    (endsDigits_fractionText ends numeral)
  have fraction := scanFraction_fractionText ends wellFormed
  have exponent := scanExponent_exponentText ends numeral.exponent
  have text : numeral.spell ++ rest = (if numeral.negative then ['-'] else []) ++
      (numeral.whole ++ (numeral.fractionText ++ (exponentText numeral.exponent ++ rest))) := by
    simp only [spell, List.append_assoc]
  rw [text]
  cases sign : numeral.negative with
  | true =>
      simp only [scan, if_true, List.singleton_append, List.head?_cons, beq_self_eq_true,
        List.tail_cons, whole, fraction, exponent, Option.bind_eq_bind, Option.bind_some]
      rw [← sign]
  | false =>
      have unsigned : ((numeral.whole ++ (numeral.fractionText ++
          (exponentText numeral.exponent ++ rest))).head? == some '-') = false := by
        cases digits : numeral.whole with
        | nil => exact absurd digits wellFormed.nonempty
        | cons first others =>
            have digit := wellFormed.whole first (digits ▸ List.mem_cons_self)
            simp only [List.cons_append, List.head?_cons, beq_eq_false_iff_ne, ne_eq,
              Option.some.injEq]
            rintro rfl
            exact absurd digit (by decide)
      simp only [scan, Bool.false_eq_true, if_false, List.nil_append, unsigned, whole, fraction,
        exponent, Option.bind_eq_bind, Option.bind_some]
      rw [← sign]

end Spelled

/-- The text of a numeral begins with a digit or a minus sign. -/
theorem exists_spell_eq {numeral : Numeral} (wellFormed : numeral.IsWellFormed) :
    ∃ head tail, numeral.spell = head :: tail ∧ (head.isDigit = true ∨ head = '-') := by
  rw [spell]
  cases numeral.negative with
  | true => exact ⟨'-', _, rfl, .inr rfl⟩
  | false =>
      cases digits : numeral.whole with
      | nil => exact absurd digits wellFormed.nonempty
      | cons first others =>
          exact ⟨first, _, rfl, .inl (wellFormed.whole first (digits ▸ List.mem_cons_self))⟩

/-! Values -/

/-- The digits of a numeral with a point or an exponent fit, so that its value is theirs with a
power of ten. -/
theorem value?_of_fits {numeral : Numeral}
    (approximate : numeral.pointed = true ∨ numeral.exponent.isSome = true)
    (fits : digitsValue (numeral.whole ++ numeral.fraction) ≤ greatestSignificand) :
    numeral.value? = floatValue numeral.negative (digitsValue (numeral.whole ++ numeral.fraction))
      (numeral.exponent.getD 0 - (numeral.fraction.length : Int)) := by
  rw [digitsValue, List.foldl_append] at fits
  have wholeFits := Nat.le_trans (le_foldl numeral.fraction _) fits
  have whole := gather_of_le wholeFits
  have fraction := gather_of_le fits
  have exponent : ((0 : Int) - (numeral.fraction.length : Int) + numeral.exponent.getD 0) =
      numeral.exponent.getD 0 - (numeral.fraction.length : Int) := by omega
  have notInteger : (numeral.pointed || numeral.exponent.isSome) = true := by
    simpa only [Bool.or_eq_true] using approximate
  simp only [value?, whole, fraction, notInteger, Bool.true_or, if_true, List.length_nil,
    Nat.sub_zero, digitsValue, List.foldl_append]
  rw [← exponent]
  rfl

end SealedCatalog.Json.Numeral
