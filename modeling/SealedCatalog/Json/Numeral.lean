import SealedCatalog.Json.Value

/-!
JSON numerals. Digits are gathered into a 64-bit significand for as long as they fit; a numeral
without point and exponent is an integer if it then lies in the 64-bit ranges, and any other one is
the significand times a power of ten, rounded at each of these two steps. A magnitude beyond the
largest binary number is refused.
-/

namespace SealedCatalog.Json

structure Numeral where
  negative : Bool
  whole : List Char
  fraction : List Char
  exponent : Option Int
  pointed : Bool

namespace Numeral

def digitValue (char : Char) : Nat :=
  char.toNat - 48

def digitsValue (digits : List Char) : Nat :=
  digits.foldl (fun value digit => 10 * value + digitValue digit) 0

def scanDigits (input : List Char) : List Char × List Char :=
  (input.takeWhile Char.isDigit, input.dropWhile Char.isDigit)

def scanFraction : List Char → Option (List Char × Bool × List Char)
  | '.' :: rest =>
      match scanDigits rest with
      | ([], _) => none
      | (digits, rest) => some (digits, true, rest)
  | rest => some ([], false, rest)

def scanExponentDigits (negative : Bool) (input : List Char) :
    Option (Option Int × List Char) :=
  match scanDigits input with
  | ([], _) => none
  | (digits, rest) =>
      let magnitude : Int := digitsValue digits
      some (some (if negative then -magnitude else magnitude), rest)

def scanExponent : List Char → Option (Option Int × List Char)
  | 'e' :: '+' :: rest => scanExponentDigits false rest
  | 'e' :: '-' :: rest => scanExponentDigits true rest
  | 'e' :: rest => scanExponentDigits false rest
  | 'E' :: '+' :: rest => scanExponentDigits false rest
  | 'E' :: '-' :: rest => scanExponentDigits true rest
  | 'E' :: rest => scanExponentDigits false rest
  | rest => some (none, rest)

def scanWhole (input : List Char) : Option (List Char × List Char) :=
  match scanDigits input with
  | ([], _) => none
  | ('0' :: _ :: _, _) => none
  | scanned => some scanned

/-- Read a numeral off the front of a text. Leading zeros, a bare point and an exponent without
digits are refused. -/
def scan (input : List Char) : Option (Numeral × List Char) := do
  let negative := input.head? == some '-'
  let (whole, rest) ← scanWhole (if negative then input.tail else input)
  let (fraction, pointed, rest) ← scanFraction rest
  let (exponent, rest) ← scanExponent rest
  some (⟨negative, whole, fraction, exponent, pointed⟩, rest)

private theorem length_scanDigits_le (input : List Char) :
    (scanDigits input).2.length ≤ input.length :=
  (List.dropWhile_suffix Char.isDigit).length_le

private theorem length_of_scanWhole {input digits rest : List Char}
    (scanned : scanWhole input = some (digits, rest)) : rest.length < input.length := by
  have split : (scanDigits input).1 ++ (scanDigits input).2 = input :=
    List.takeWhile_append_dropWhile
  unfold scanWhole at scanned
  split at scanned
  · simp at scanned
  · simp at scanned
  next nonempty _ =>
    simp only [Option.some.injEq] at scanned
    rw [scanned] at split nonempty
    have : digits ≠ [] := fun empty => nonempty rest (by rw [empty])
    have : 0 < digits.length := List.length_pos_iff.mpr this
    have := congrArg List.length split
    simp only [List.length_append] at this
    omega

private theorem length_of_scanFraction {input digits rest : List Char} {pointed : Bool}
    (scanned : scanFraction input = some (digits, pointed, rest)) :
    rest.length ≤ input.length := by
  unfold scanFraction at scanned
  split at scanned
  next after =>
    split at scanned
    · simp at scanned
    next digits' rest' _ same =>
      simp only [Option.some.injEq, Prod.mk.injEq] at scanned
      have := length_scanDigits_le after
      rw [same] at this
      simp only [← scanned.2.2, List.length_cons] at this ⊢
      omega
  · simp only [Option.some.injEq, Prod.mk.injEq] at scanned
    simp [← scanned.2.2]

private theorem length_of_scanExponentDigits {negative : Bool} {input rest : List Char}
    {exponent : Option Int} (scanned : scanExponentDigits negative input = some (exponent, rest)) :
    rest.length ≤ input.length := by
  unfold scanExponentDigits at scanned
  split at scanned
  · simp at scanned
  next same =>
    simp only [Option.some.injEq, Prod.mk.injEq] at scanned
    have := length_scanDigits_le input
    rw [same] at this
    simpa only [← scanned.2] using this

private theorem length_of_scanExponent {input rest : List Char} {exponent : Option Int}
    (scanned : scanExponent input = some (exponent, rest)) : rest.length ≤ input.length := by
  unfold scanExponent at scanned
  split at scanned
  case h_7 =>
    simp only [Option.some.injEq, Prod.mk.injEq] at scanned
    simp [← scanned.2]
  all_goals
    have := length_of_scanExponentDigits scanned
    simp only [List.length_cons]
    omega

theorem length_of_scan {input rest : List Char} {numeral : Numeral}
    (scanned : scan input = some (numeral, rest)) : rest.length < input.length := by
  simp only [scan, Option.bind_eq_bind, Option.bind_eq_some_iff, Option.some.injEq,
    Prod.mk.injEq, Prod.exists] at scanned
  obtain ⟨whole, afterWhole, wholeScanned, fraction, pointed, afterFraction, fractionScanned,
    exponent, afterExponent, exponentScanned, _, same⟩ := scanned
  have first := length_of_scanWhole wholeScanned
  have second := length_of_scanFraction fractionScanned
  have third := length_of_scanExponent exponentScanned
  rw [← same]
  split at first
  · simp only [List.length_tail] at first
    omega
  · omega

def greatestSignificand : Nat := Nat.pow 2 64 - 1

/-- Take digits into a significand while it fits into 64 bits. -/
def gather (significand : Nat) : List Char → Nat × List Char
  | [] => (significand, [])
  | digit :: rest =>
      let extended := 10 * significand + digitValue digit
      if extended ≤ greatestSignificand then gather extended rest else (significand, digit :: rest)

def powerOfTen (exponent : Nat) : Option Number.Binary64 :=
  Number.Binary64.ofRatio ⟨false, Nat.pow 10 exponent, 1⟩

/-- A magnitude times a power of ten. One power covers 308 digits; a magnitude that a negative
exponent sends below that range vanishes within `fuel` steps. -/
def scale : Nat → Number.Binary64 → Int → Option Number.Binary64
  | 0, _, _ => some (Number.Binary64.zero false)
  | fuel + 1, magnitude, exponent =>
      if exponent.natAbs ≤ 308 then
        (powerOfTen exponent.natAbs).bind
          (if exponent ≥ 0 then magnitude.multiply else magnitude.divide)
      else if magnitude.isZero then
        some magnitude
      else if exponent ≥ 0 then
        none
      else
        ((powerOfTen 308).bind magnitude.divide).bind fun reduced =>
          scale fuel reduced (exponent + 308)

def floatValue (negative : Bool) (significand : Nat) (exponent : Int) : Option Json := do
  let magnitude ← Number.Binary64.ofInt significand
  let scaled ← scale 3 magnitude exponent
  some (float (if negative then scaled.negate else scaled))

def value? (numeral : Numeral) : Option Json :=
  let (whole, dropped) := gather 0 numeral.whole
  if numeral.pointed || numeral.exponent.isSome || !dropped.isEmpty then
    let (significand, ignored) := gather whole numeral.fraction
    let taken := numeral.fraction.length - ignored.length
    floatValue numeral.negative significand
      ((dropped.length : Int) - (taken : Int) + numeral.exponent.getD 0)
  else if !numeral.negative then
    some (int whole)
  else if whole == 0 || -(whole : Int) < leastInt then
    floatValue true whole 0
  else
    some (int (-(whole : Int)))

end Numeral

end SealedCatalog.Json
