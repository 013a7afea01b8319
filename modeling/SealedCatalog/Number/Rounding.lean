/-!
Quotients of natural numbers rounded to the nearest integer.
-/

namespace SealedCatalog.Number

/-- The quotient rounded to the nearest natural number, a tie going to the even one. -/
def roundQuotient (numerator denominator : Nat) : Nat :=
  let quotient := numerator / denominator
  let remainder := numerator % denominator
  if 2 * remainder > denominator then
    quotient + 1
  else if 2 * remainder == denominator && quotient % 2 == 1 then
    quotient + 1
  else
    quotient

theorem roundQuotient_eq_or (numerator denominator : Nat) :
    roundQuotient numerator denominator = numerator / denominator ∨
      roundQuotient numerator denominator = numerator / denominator + 1 := by
  simp only [roundQuotient]
  split
  · exact .inr rfl
  · split
    · exact .inr rfl
    · exact .inl rfl

def ceilQuotient (numerator denominator : Nat) : Nat :=
  (numerator + denominator - 1) / denominator

end SealedCatalog.Number
