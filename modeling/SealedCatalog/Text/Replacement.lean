/-!
Replacing one text by another wherever it occurs.
-/

namespace SealedCatalog.Text

/-- The text with every occurrence of `part`, which is not empty, replaced. Occurrences are taken
from left to right and do not overlap. -/
def replaceAll (part replacement : List Char) : List Char → List Char
  | [] => []
  | char :: rest =>
      if part.isPrefixOf (char :: rest) then
        replacement ++ replaceAll part replacement (rest.drop (part.length - 1))
      else
        char :: replaceAll part replacement rest
termination_by text => text.length
decreasing_by
  · simp only [List.length_drop, List.length_cons]
    omega
  · exact Nat.lt_succ_self _

@[simp] theorem replaceAll_nil (part replacement : List Char) :
    replaceAll part replacement [] = [] := by
  rw [replaceAll]

theorem replaceAll_append (head : Char) (tail replacement rest : List Char) :
    replaceAll (head :: tail) replacement (head :: (tail ++ rest)) =
      replacement ++ replaceAll (head :: tail) replacement rest := by
  rw [replaceAll]
  simp [List.isPrefixOf_iff_prefix]

theorem replaceAll_cons {part replacement rest : List Char} {char : Char}
    (absent : ¬ part <+: char :: rest) :
    replaceAll part replacement (char :: rest) = char :: replaceAll part replacement rest := by
  rw [replaceAll]
  simp [List.isPrefixOf_iff_prefix, absent]

end SealedCatalog.Text
