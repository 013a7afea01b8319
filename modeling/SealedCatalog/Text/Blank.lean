/-!
White space in the sense of the Unicode property `White_Space`, and trimming by it.
-/

namespace SealedCatalog.Text

/-- Whether a character has the Unicode property `White_Space`. -/
def isBlank (char : Char) : Bool :=
  let code := char.toNat
  (0x09 ≤ code && code ≤ 0x0d) || code == 0x20 || code == 0x85 || code == 0xa0 ||
    code == 0x1680 || (0x2000 ≤ code && code ≤ 0x200a) || code == 0x2028 || code == 0x2029 ||
    code == 0x202f || code == 0x205f || code == 0x3000

def trimStart (text : List Char) : List Char :=
  text.dropWhile isBlank

def trimEnd (text : List Char) : List Char :=
  (text.reverse.dropWhile isBlank).reverse

def trim (text : List Char) : List Char :=
  trimEnd (trimStart text)

def isAllBlank (text : String) : Bool :=
  text.toList.all isBlank

theorem isBlank_of_isDigit {char : Char} (digit : char.isDigit = true) : isBlank char = false := by
  have bounds : 48 ≤ char.toNat ∧ char.toNat ≤ 57 := Char.isDigit_iff_toNat.mp digit
  simp only [isBlank, Bool.or_eq_false_iff, Bool.and_eq_false_iff, decide_eq_false_iff_not,
    beq_eq_false_iff_ne]
  omega

theorem trimStart_of_head {first : Char} (nonblank : isBlank first = false) (rest : List Char) :
    trimStart (first :: rest) = first :: rest :=
  List.dropWhile_cons_of_neg (by simp [nonblank])

/-- A text has nothing to trim if it begins and ends with characters that are not blank. -/
theorem trim_eq_self {text : List Char} (first : ∀ char ∈ text.head?, isBlank char = false)
    (last : ∀ char ∈ text.getLast?, isBlank char = false) : trim text = text := by
  have whole : ∀ {text : List Char}, (∀ char ∈ text.head?, isBlank char = false) →
      trimStart text = text := fun {text} first => by
    cases text with
    | nil => rfl
    | cons char rest => exact trimStart_of_head (first char rfl) rest
  have reversed : trimStart text.reverse = text.reverse :=
    whole (by rwa [List.head?_reverse])
  rw [trim, whole first, trimEnd]
  exact (congrArg List.reverse reversed).trans text.reverse_reverse

end SealedCatalog.Text
