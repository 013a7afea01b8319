import Mathlib.Data.List.TakeWhile
import SealedCatalog.Proofs.SortKey.Packed

/-! Texts with a number in them. The first run of digits of a text is the number that the text is
sorted by, however long the run is and however many zeros it begins with. -/

namespace SealedCatalog

namespace Text

/-- A text and its first run of decimal digits, be they of any script. -/
inductive FirstRun : List Char → List Char → Prop where
  | intro {before run after : List Char} (free : ∀ char ∈ before, isDecimalDigit char = false)
      (digits : ∀ char ∈ run, isDecimalDigit char = true) (nonempty : run ≠ [])
      (ends : ∀ char ∈ after.head?, isDecimalDigit char = false) :
      FirstRun (before ++ (run ++ after)) run

/-- What is passed over ends where the first run of a class of characters begins, and the run ends
where the class does. -/
theorem takeWhile_dropWhile_of_run {isDigit : Char → Bool} {before run after : List Char}
    (free : ∀ char ∈ before, isDigit char = false) (digits : ∀ char ∈ run, isDigit char = true)
    (nonempty : run ≠ []) (ends : ∀ char ∈ after.head?, isDigit char = false) :
    ((before ++ (run ++ after)).dropWhile fun char => !isDigit char).takeWhile isDigit = run := by
  have passed : ∀ char ∈ before, (!isDigit char) = true := by simpa using free
  have stopped : after.takeWhile isDigit = [] := by
    cases after with
    | nil => rfl
    | cons head rest => simp [ends head rfl]
  have reached : (run ++ after).dropWhile (fun char => !isDigit char) = run ++ after := by
    cases run with
    | nil => exact absurd rfl nonempty
    | cons digit rest => simp [digits digit List.mem_cons_self]
  rw [List.dropWhile_append_of_pos passed, reached, List.takeWhile_append_of_pos digits, stopped,
    List.append_nil]

theorem FirstRun.ne_nil {text run : List Char} (first : FirstRun text run) : run ≠ [] := by
  cases first with
  | intro _ _ nonempty => exact nonempty

/-- The first run of decimal digits of a text has ASCII digits alone, and they denote the number. -/
def Denotes (text : String) (number : Nat) : Prop :=
  ∃ run, FirstRun text.toList run ∧ SortKey.AreDigits run ∧ Nat.ofDigitChars 10 run 0 = number

theorem Denotes.ne_empty {text : String} {number : Nat} (denotes : Denotes text number) :
    text ≠ "" := by
  rintro rfl
  rcases denotes with ⟨run, first, _⟩
  generalize written : "".toList = text at first
  cases first with
  | intro _ _ nonempty => simp [nonempty] at written

/-- There is no decimal digit in the text. -/
def HasNoDigits (text : String) : Prop :=
  ∀ char ∈ text.toList, isDecimalDigit char = false

end Text

namespace SortKey

theorem digitRun_of_firstRun {text run : List Char} (first : Text.FirstRun text run) :
    digitRun text = run := by
  rcases first with ⟨free, digits, nonempty, ends⟩
  exact Text.takeWhile_dropWhile_of_run free digits nonempty ends

theorem utf8ByteSize_of_areDigits {digits : List Char} (areDigits : AreDigits digits) :
    (String.ofList digits).utf8ByteSize = digits.length := by
  induction digits with
  | nil => rfl
  | cons digit rest induction =>
      have ⟨isDigit, others⟩ := areDigits_cons_iff.mp areDigits
      have ascii : digit.utf8Size = 1 := Char.utf8Size_eq_one_iff.mpr (by
        have bound := (bounds_of_isDigit isDigit).2
        exact UInt32.le_iff_toNat_le.mpr (Nat.le_trans bound (by decide)))
      rw [String.ofList_cons, String.utf8ByteSize_append, String.utf8ByteSize_singleton, ascii,
        induction others, List.length_cons, Nat.add_comm]

/-- A number that has more digits than the greatest magnitude is beyond it. -/
theorem greatestMagnitude_lt {digit : Char} {rest : List Char} (isDigit : digit.isDigit = true)
    (significant : digit ≠ '0') (long : width < (digit :: rest).length) :
    greatestMagnitude < Nat.ofDigitChars 10 (digit :: rest) 0 :=
  calc greatestMagnitude
    _ < 10 ^ width := by decide
    _ ≤ 10 ^ rest.length := Nat.pow_le_pow_right (by decide) (Nat.le_of_lt_succ long)
    _ ≤ _ := pow_le_ofDigitChars isDigit significant

theorem packInteger_of_lt {number : Nat} (beyond : greatestMagnitude < number) :
    packInteger greatestMagnitude = packInteger number := by
  rw [packInteger_eq_packInteger_iff, clamped_natCast, clamped_natCast, Nat.min_self,
    Nat.min_eq_right beyond.le]

/-- The key of a text is that of the number it denotes. -/
theorem encodeNumberText_of_denotes {text : String} {number : Nat}
    (denotes : Text.Denotes text number) : encodeNumberText text = some (packInteger number) := by
  rcases denotes with ⟨run, first, areDigits, rfl⟩
  have significant : AreDigits (run.dropWhile (· == '0')) := fun char member =>
    areDigits char ((List.dropWhile_suffix _).mem member)
  rw [encodeNumberText, digitRun_of_firstRun first, ← ofDigitChars_dropWhile_zero run]
  simp only [List.isEmpty_iff, first.ne_nil, if_false]
  show (if (String.ofList (run.dropWhile (· == '0'))).utf8ByteSize > width then _ else _) = _
  rw [utf8ByteSize_of_areDigits significant, if_pos (List.all_eq_true.mpr significant)]
  split
  next long =>
    cases written : run.dropWhile (· == '0') with
    | nil => simp [written] at long
    | cons digit rest =>
        rw [written] at significant long
        have notZero := List.head?_dropWhile_not (· == '0') run
        rw [written] at notZero
        rw [packInteger_of_lt (greatestMagnitude_lt (areDigits_cons_iff.mp significant).1
          (by simpa using notZero) long)]
  · rfl

theorem encodeNumberText_of_hasNoDigits {text : String} (absent : Text.HasNoDigits text) :
    encodeNumberText text = none := by
  have passed : ∀ char ∈ text.toList, (!Text.isDecimalDigit char) = true := fun char member => by
    rw [absent char member]
    rfl
  have empty : digitRun text.toList = [] := by
    rw [digitRun, List.dropWhile_eq_nil_iff.mpr passed]
    rfl
  rw [encodeNumberText, empty]
  rfl

end SortKey

end SealedCatalog
