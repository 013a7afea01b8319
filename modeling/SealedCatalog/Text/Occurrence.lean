/-!
Where one text occurs inside another. Main statement: `occursIn` finds a text exactly when the
other is that text between two others.
-/

namespace SealedCatalog.Text

/-- Whether `part` stands somewhere in the text. The empty text stands everywhere. -/
def occursIn (part : List Char) : List Char → Bool
  | [] => part.isEmpty
  | char :: rest => part.isPrefixOf (char :: rest) || occursIn part rest

theorem occursIn_iff {part text : List Char} :
    occursIn part text = true ↔ ∃ before after, text = before ++ part ++ after := by
  induction text with
  | nil => simp [occursIn]
  | cons char rest induction =>
      simp only [occursIn, Bool.or_eq_true, List.isPrefixOf_iff_prefix, induction]
      constructor
      · rintro (⟨after, equal⟩ | ⟨before, after, equal⟩)
        · exact ⟨[], after, by simpa using equal.symm⟩
        · exact ⟨char :: before, after, by simp [equal]⟩
      · rintro ⟨before, after, equal⟩
        cases before with
        | nil => exact .inl ⟨after, by simpa using equal.symm⟩
        | cons head before =>
            simp only [List.cons_append, List.cons.injEq] at equal
            exact .inr ⟨before, after, equal.2⟩

def contains (text part : String) : Bool :=
  occursIn part.toList text.toList

def beginsWith (text start : String) : Bool :=
  start.toList.isPrefixOf text.toList

end SealedCatalog.Text
