import SealedCatalog.Proofs.SortKey.Numbered

/-! Texts with digits of several scripts. A text is sorted by its first run of decimal digits of any
script, and a digit of another script in that run spoils the number. So a text is sorted by its
first run of ASCII digits if the first of all runs has those alone, and by chance otherwise. -/

namespace SealedCatalog

namespace Text

/-! ## First runs -/

/-- A text and its first run of ASCII digits, which goes on as far as there are such digits. -/
inductive FirstAsciiRun : List Char → List Char → Prop where
  | intro {before run after : List Char} (free : ∀ char ∈ before, char.isDigit = false)
      (digits : SortKey.AreDigits run) (nonempty : run ≠ [])
      (ends : ∀ char ∈ after.head?, char.isDigit = false) :
      FirstAsciiRun (before ++ (run ++ after)) run

/-- A text with a character of a class is what comes before the first run of that class, the run,
and what comes after it. -/
theorem exists_run {isDigit : Char → Bool} {text : List Char} {char : Char} (member : char ∈ text)
    (digit : isDigit char = true) : ∃ before run after, text = before ++ (run ++ after) ∧
      (∀ char ∈ before, isDigit char = false) ∧ (∀ char ∈ run, isDigit char = true) ∧ run ≠ [] ∧
      ∀ char ∈ after.head?, isDigit char = false := by
  induction text with
  | nil => cases member
  | cons head rest induction =>
      cases first : isDigit head with
      | false =>
          have later : char ∈ rest := by
            rcases List.mem_cons.mp member with rfl | later
            · simp [digit] at first
            · exact later
          rcases induction later with ⟨before, run, after, rfl, free, digits, nonempty, ends⟩
          exact ⟨head :: before, run, after, rfl, List.forall_mem_cons.mpr ⟨first, free⟩, digits,
            nonempty, ends⟩
      | true =>
          refine ⟨[], head :: rest.takeWhile isDigit, rest.dropWhile isDigit, ?_,
            List.forall_mem_nil _, List.forall_mem_cons.mpr ⟨first, ?_⟩, List.cons_ne_nil _ _, ?_⟩
          · rw [List.nil_append, List.cons_append, List.takeWhile_append_dropWhile]
          · exact fun char inside => List.mem_takeWhile_imp inside
          · intro char ahead
            have stopped := List.head?_dropWhile_not isDigit rest
            rw [Option.mem_def.mp ahead] at stopped
            simpa using stopped

theorem exists_firstRun {text : String} (present : ¬ HasNoDigits text) :
    ∃ run, FirstRun text.toList run := by
  obtain ⟨char, member, digit⟩ : ∃ char ∈ text.toList, isDecimalDigit char = true := by
    simpa [HasNoDigits] using present
  rcases exists_run member digit with ⟨before, run, after, parts, free, digits, nonempty, ends⟩
  exact ⟨run, parts ▸ .intro free digits nonempty ends⟩

theorem exists_firstAsciiRun {text : List Char} {char : Char} (member : char ∈ text)
    (digit : char.isDigit = true) : ∃ run, FirstAsciiRun text run := by
  rcases exists_run member digit with ⟨before, run, after, parts, free, digits, nonempty, ends⟩
  exact ⟨run, parts ▸ .intro free digits nonempty ends⟩

theorem FirstAsciiRun.unique {text run other : List Char} (first : FirstAsciiRun text run)
    (otherFirst : FirstAsciiRun text other) : run = other := by
  have read : ∀ {run}, FirstAsciiRun text run →
      (text.dropWhile fun char => !char.isDigit).takeWhile Char.isDigit = run := by
    rintro run ⟨free, digits, nonempty, ends⟩
    exact takeWhile_dropWhile_of_run free digits nonempty ends
  exact (read first).symm.trans (read otherFirst)

theorem FirstAsciiRun.exists_isDigit {text run : List Char} (first : FirstAsciiRun text run) :
    ∃ char ∈ text, char.isDigit = true := by
  rcases first with ⟨_, digits, nonempty, _⟩
  obtain ⟨char, member⟩ := List.exists_mem_of_ne_nil run nonempty
  exact ⟨char, by simp [member], digits char member⟩

theorem isDigit_eq_false {char : Char} (other : isDecimalDigit char = false) :
    char.isDigit = false :=
  Bool.eq_false_iff.mpr fun digit => by simp [isDecimalDigit_of_isDigit digit] at other

/-- The first of all runs is the first one of ASCII digits if it has those alone. -/
theorem FirstRun.firstAsciiRun {text run : List Char} (first : FirstRun text run)
    (areDigits : SortKey.AreDigits run) : FirstAsciiRun text run := by
  rcases first with ⟨free, _, nonempty, ends⟩
  exact .intro (fun char member => isDigit_eq_false (free char member)) areDigits nonempty
    fun char ahead => isDigit_eq_false (ends char ahead)

end Text

namespace SortKey

open Text (FirstRun FirstAsciiRun)

/-! ## Keys -/

/-- The number of bytes of the digits after the leading zeros. -/
def significantSize (run : List Char) : Nat :=
  (String.ofList (run.dropWhile (· == '0'))).utf8ByteSize

/-- A digit of another script makes the number zero, unless the run is too long for any number. -/
theorem encodeNumberText_of_not_areDigits {text : String} {run : List Char}
    (first : FirstRun text.toList run) (foreign : ¬ AreDigits run) :
    encodeNumberText text =
      some (packInteger (if width < significantSize run then greatestMagnitude else 0)) := by
  have remains : (run.dropWhile (· == '0')).all Char.isDigit = false := by
    obtain ⟨char, member, other⟩ : ∃ char ∈ run, char.isDigit = false := by
      simpa [AreDigits] using foreign
    have kept : char ∈ run.dropWhile (· == '0') := by
      rw [← List.takeWhile_append_dropWhile (p := (· == '0')) (l := run)] at member
      rcases List.mem_append.mp member with zero | kept
      · have isZero := List.mem_takeWhile_imp zero
        cases (beq_iff_eq.mp isZero : char = '0')
        cases other
      · exact kept
    exact List.all_eq_false.mpr ⟨char, kept, by simp [other]⟩
  rw [encodeNumberText, digitRun_of_firstRun first]
  simp only [List.isEmpty_iff, first.ne_nil, if_false, remains]
  show (if significantSize run > width then _ else _) = _
  split <;> rfl

/-- A text is sorted by the number that its first run of ASCII digits denotes, and has no key
without such digits. -/
structure ReadsAsciiRun (text : String) : Prop where
  keyless : encodeNumberText text = none ↔ ∀ char ∈ text.toList, char.isDigit = false
  keyed : ∀ run, FirstAsciiRun text.toList run → encodeNumberText text =
    some (packInteger (min (Nat.ofDigitChars 10 run 0) 999999999999999999 : Nat))
  /-- No number but zero has the key of zero. -/
  nonzero : ∀ run, FirstAsciiRun text.toList run → Nat.ofDigitChars 10 run 0 ≠ 0 →
    encodeNumberText text ≠ some (packInteger 0)

/-- The key of a run that has a digit of another script is that of the number: either the run is too
long and the number is not below the greatest magnitude, or both count as zero. -/
def CountsAs (run : List Char) (number : Nat) : Prop :=
  if width < significantSize run then greatestMagnitude ≤ number else number = 0

theorem packInteger_min (number : Nat) :
    packInteger (min number 999999999999999999 : Nat) = packInteger number := by
  rw [packInteger_eq_packInteger_iff, clamped_natCast, clamped_natCast, ← greatestMagnitude_eq,
    Nat.min_assoc, Nat.min_self]

theorem packInteger_ite_eq_iff {run : List Char} {number : Nat} :
    packInteger (if width < significantSize run then greatestMagnitude else 0) =
      packInteger number ↔ CountsAs run number := by
  have positive : 0 < greatestMagnitude := by decide
  rw [packInteger_eq_packInteger_iff, clamped_natCast, CountsAs, clamped]
  split <;> omega

theorem readsAsciiRun_of_hasNoDigits {text : String} (absent : Text.HasNoDigits text) :
    ReadsAsciiRun text := by
  have free : ∀ char ∈ text.toList, char.isDigit = false := fun char member =>
    Text.isDigit_eq_false (absent char member)
  have noRun : ∀ run, ¬ FirstAsciiRun text.toList run := by
    intro run first
    obtain ⟨char, member, digit⟩ := first.exists_isDigit
    simp [free char member] at digit
  exact ⟨iff_of_true (encodeNumberText_of_hasNoDigits absent) free,
    fun run first => absurd first (noRun run), fun run first => absurd first (noRun run)⟩

/-- Where there are ASCII digits, it is enough that the key is that of their number. -/
theorem readsAsciiRun_of_key {text : String} {run : List Char}
    (first : FirstAsciiRun text.toList run)
    (key : encodeNumberText text = some (packInteger (Nat.ofDigitChars 10 run 0))) :
    ReadsAsciiRun text where
  keyless := by
    obtain ⟨char, member, digit⟩ := first.exists_isDigit
    refine iff_of_false (by simp [key]) fun free => ?_
    simp [free char member] at digit
  keyed other otherFirst := by
    rw [packInteger_min, ← first.unique otherFirst, key]
  nonzero other otherFirst notZero := by
    have positive : 0 < greatestMagnitude := by decide
    rw [← first.unique otherFirst] at notZero
    rw [key, ne_eq, Option.some_inj, packInteger_eq_packInteger_iff, clamped_natCast, clamped]
    omega

/-- A text is sorted by its first run of ASCII digits exactly if its first run of decimal digits, if
there is one, has ASCII digits alone or happens to have the key of the number. -/
theorem readsAsciiRun_iff (text : String) :
    ReadsAsciiRun text ↔ ∀ run, FirstRun text.toList run → AreDigits run ∨
      ∃ ascii, FirstAsciiRun text.toList ascii ∧ CountsAs run (Nat.ofDigitChars 10 ascii 0) := by
  constructor
  · intro reads run first
    by_cases areDigits : AreDigits run
    · exact .inl areDigits
    have key := encodeNumberText_of_not_areDigits first areDigits
    obtain ⟨char, member, digit⟩ : ∃ char ∈ text.toList, char.isDigit = true := by
      by_contra absent
      have keyless := reads.keyless.mpr (by simpa using absent)
      simp [keyless] at key
    obtain ⟨ascii, asciiFirst⟩ := Text.exists_firstAsciiRun member digit
    have number := reads.keyed ascii asciiFirst
    rw [key, Option.some_inj, packInteger_min, packInteger_ite_eq_iff] at number
    exact .inr ⟨ascii, asciiFirst, number⟩
  · intro reads
    by_cases absent : Text.HasNoDigits text
    · exact readsAsciiRun_of_hasNoDigits absent
    obtain ⟨run, first⟩ := Text.exists_firstRun absent
    by_cases areDigits : AreDigits run
    · exact readsAsciiRun_of_key (first.firstAsciiRun areDigits)
        (encodeNumberText_of_denotes ⟨run, first, areDigits, rfl⟩)
    rcases reads run first with ascii | ⟨ascii, asciiFirst, counts⟩
    · exact absurd ascii areDigits
    · refine readsAsciiRun_of_key asciiFirst ?_
      rw [encodeNumberText_of_not_areDigits first areDigits, packInteger_ite_eq_iff.mpr counts]

/-- Twelve and a digit of another script are sorted as zero. -/
theorem not_readsAsciiRun_twelve :
    FirstAsciiRun "12٣".toList "12".toList ∧ Nat.ofDigitChars 10 "12".toList 0 = 12 ∧
      encodeNumberText "12٣" = some (packInteger 0) ∧ ¬ ReadsAsciiRun "12٣" := by
  have ends : ∀ char ∈ ['٣'].head?, char.isDigit = false := by
    rintro _ ⟨⟩
    rfl
  have first : FirstAsciiRun "12٣".toList "12".toList :=
    @FirstAsciiRun.intro [] ['1', '2'] ['٣'] (List.forall_mem_nil _) (by decide) (by decide) ends
  have key : encodeNumberText "12٣" = some (packInteger 0) := by decide
  exact ⟨first, by decide, key, fun reads => reads.nonzero _ first (by decide) key⟩

end SortKey

end SealedCatalog
