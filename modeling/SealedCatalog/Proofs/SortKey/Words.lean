import SealedCatalog.Proofs.SortKey.Numbered

/-! Keys of 64-bit integers. They are computed in words of 64 bits, in which no magnitude is too
great, no difference falls below zero and no number has more digits than it is padded to. So they
are the keys of the integers, of one length and in the order of the integers. -/

namespace SealedCatalog.SortKey

/-! ## Keys in words -/

def greatestWord : UInt64 := 999999999999999999

/-- The magnitude of an integer, or the greatest one. The least integer is its own absolute value,
and as a word without sign that is its magnitude. -/
def magnitudeWord (value : Int64) : UInt64 :=
  min value.abs.toUInt64 greatestWord

def packWord (value : Int64) : String :=
  if value < 0 then
    String.ofList ('-' :: padded width (greatestWord - magnitudeWord value).toNat)
  else
    String.ofList (padded (width + 1) (magnitudeWord value).toNat)

theorem toNat_toUInt64_abs (value : Int64) :
    value.abs.toUInt64.toNat = value.toInt.natAbs := by
  show value.abs.toBitVec.toNat = value.toBitVec.toInt.natAbs
  have bound := value.toBitVec.isLt
  -- Both sides ask for the highest bit, and the word then lacks its magnitude to a power of two.
  rw [Int64.toBitVec_abs, BitVec.toNat_abs, BitVec.toInt_eq_msb_cond]
  split <;> omega

theorem toNat_greatestWord : greatestWord.toNat = greatestMagnitude := by decide

theorem toNat_magnitudeWord (value : Int64) :
    (magnitudeWord value).toNat = min value.toInt.natAbs greatestMagnitude := by
  rw [magnitudeWord, UInt64.toNat_min, toNat_toUInt64_abs, toNat_greatestWord]

theorem magnitudeWord_le (value : Int64) : magnitudeWord value ≤ greatestWord := by
  rw [UInt64.le_iff_toNat_le, toNat_magnitudeWord, toNat_greatestWord]
  exact Nat.min_le_right _ _

theorem toNat_lackWord (value : Int64) : (greatestWord - magnitudeWord value).toNat =
    greatestMagnitude - min value.toInt.natAbs greatestMagnitude := by
  rw [UInt64.toNat_sub_of_le _ _ (magnitudeWord_le value), toNat_greatestWord,
    toNat_magnitudeWord]

theorem packWord_eq (value : Int64) : packWord value = packInteger value.toInt := by
  have sign : value < 0 ↔ value.toInt < 0 := Int64.lt_iff_toInt_lt
  rw [packWord, packInteger, toNat_lackWord, toNat_magnitudeWord]
  simp only [sign]

/-! ## Length -/

theorem length_digits_le {value : Nat} (fits : value ≤ greatestMagnitude) :
    (Nat.toDigits 10 value).length ≤ width :=
  (Nat.length_toDigits_le_iff (by decide) (by decide)).mpr (Nat.lt_of_le_of_lt fits (by decide))

theorem utf8ByteSize_packInteger (value : Int) : (packInteger value).utf8ByteSize = width + 1 := by
  have magnitudeFits : min value.natAbs greatestMagnitude < 10 ^ (width + 1) :=
    Nat.lt_of_le_of_lt (Nat.min_le_right _ _) (by decide)
  have lackFits : greatestMagnitude - min value.natAbs greatestMagnitude < 10 ^ width :=
    Nat.lt_of_le_of_lt (Nat.sub_le _ _) (by decide)
  unfold packInteger
  split
  · rw [String.ofList_cons, String.utf8ByteSize_append, String.utf8ByteSize_singleton,
      utf8ByteSize_of_areDigits (areDigits_padded _ _), length_padded (by decide) lackFits]
    rfl
  · rw [utf8ByteSize_of_areDigits (areDigits_padded _ _),
      length_padded (by decide) magnitudeFits]

/-! ## Order -/

/-- What is computed in words for the key of an integer is what is meant by it. -/
structure IsExact (value : Int64) : Prop where
  magnitude : value.abs.toUInt64.toNat = value.toInt.natAbs
  /-- Nothing is borrowed from beyond the word. -/
  lack : (greatestWord - magnitudeWord value).toNat + (magnitudeWord value).toNat =
    greatestMagnitude
  /-- There is room for all digits, of the magnitude and of what it lacks. -/
  magnitudeDigits : (Nat.toDigits 10 (magnitudeWord value).toNat).length ≤ width
  lackDigits : (Nat.toDigits 10 (greatestWord - magnitudeWord value).toNat).length ≤ width
  key : packWord value = packInteger value.toInt

theorem isExact (value : Int64) : IsExact value where
  magnitude := toNat_toUInt64_abs value
  lack := by
    rw [toNat_lackWord, toNat_magnitudeWord]
    exact Nat.sub_add_cancel (Nat.min_le_right _ _)
  magnitudeDigits := length_digits_le (toNat_magnitudeWord value ▸ Nat.min_le_right _ _)
  lackDigits := length_digits_le (toNat_lackWord value ▸ Nat.sub_le _ _)
  key := packWord_eq value

/-- The keys of 64-bit integers are computed exactly and have nineteen bytes. They are in the order
of the integers up to the greatest magnitude, so they tell all integers within it apart, and the key
of a negative integer comes before that of any other. -/
theorem packInteger_orders (left right : Int64) :
    IsExact left ∧ (packInteger left.toInt).utf8ByteSize = 19 ∧
      (packInteger left.toInt < packInteger right.toInt ↔
        clamped left.toInt < clamped right.toInt) ∧
      (packInteger left.toInt = packInteger right.toInt ↔
        clamped left.toInt = clamped right.toInt) ∧
      (-999999999999999999 ≤ left → left < right → right ≤ 999999999999999999 →
        packInteger left.toInt < packInteger right.toInt) ∧
      (left < 0 → 0 ≤ right → packInteger left.toInt < packInteger right.toInt) := by
  have less := @packInteger_lt_packInteger_iff left.toInt right.toInt
  refine ⟨isExact left, utf8ByteSize_packInteger _, less, packInteger_eq_packInteger_iff,
    fun least below greatest => ?_, fun negative nonneg => ?_⟩
  · rw [Int64.le_iff_toInt_le] at least greatest
    rw [Int64.lt_iff_toInt_lt] at below
    have leastInt : (-999999999999999999 : Int64).toInt = -999999999999999999 := by decide
    have greatestInt : (999999999999999999 : Int64).toInt = 999999999999999999 := by decide
    rw [less, clamped, clamped, greatestMagnitude_eq]
    omega
  · rw [Int64.lt_iff_toInt_lt] at negative
    rw [Int64.le_iff_toInt_le] at nonneg
    have zeroInt : (0 : Int64).toInt = 0 := by decide
    rw [less, clamped, clamped, greatestMagnitude_eq]
    omega

/-- The least integer has the least key, which is that of all integers beyond the greatest
magnitude. -/
example : packWord Int64.minValue = "-000000000000000000" := by decide

end SealedCatalog.SortKey
