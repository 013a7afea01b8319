import SealedCatalog.Proofs.Query.Comparison
import SealedCatalog.Proofs.SortKey.Numbered

/-! Comparisons of entries that sort as numbers. They compare the numbers that the operand and the
value denote, up to the greatest magnitude. -/

namespace SealedCatalog

/-- A value of an entry denotes a number: a rating its score, and a text what its digits denote. -/
inductive EntryValue.Denotes : EntryKind → EntryValue → Nat → Prop where
  | text (unique : Bool) {text : String} {number : Nat} (denotes : Text.Denotes text number) :
      Denotes (.string unique) (.string text) number
  | score (maximum : UInt32) (hints : Option (List String)) (score : UInt32)
      (comment : Option String) :
      Denotes (.rating maximum hints) (.rating score comment) score.toNat

namespace SortKey

/-- The relations of packed numbers are those of the numbers up to the greatest magnitude. -/
theorem relates_packInteger_iff {relation : Relation} {left right : Nat} :
    relation.Relates (packInteger left) (packInteger right) ↔
      relation.Relates (min left greatestMagnitude) (min right greatestMagnitude) := by
  have less : ∀ {left right : Nat}, packInteger left < packInteger right ↔
      min left greatestMagnitude < min right greatestMagnitude := by
    intro left right
    rw [packInteger_lt_packInteger_iff, clamped_natCast, clamped_natCast, Int.ofNat_lt]
  cases relation with
  | less => exact less
  | equal =>
      show packInteger left = packInteger right ↔ _ = _
      rw [packInteger_eq_packInteger_iff, clamped_natCast, clamped_natCast, Int.natCast_inj]
  | greater => exact less

/-- The key of a value that denotes a number is that of the number. -/
theorem ofValue_of_denotes {entry : Entry} (numeric : entry.sortingMethod = .asNumber)
    {value : EntryValue} {number : Nat} (denotes : value.Denotes entry.kind number)
    (pool : TagPool) : ofValue entry value pool = some (packInteger number) := by
  rcases entry with ⟨name, method, optional, kind⟩
  cases numeric
  cases denotes with
  | text unique denotes => exact encodeNumberText_of_denotes denotes
  | score maximum hints score comment => rfl

/-- A text without digits has no key under any entry that sorts as a number. -/
theorem ofValue_of_hasNoDigits {entry : Entry} (numeric : entry.sortingMethod = .asNumber)
    {text : String} (absent : Text.HasNoDigits text) (pool : TagPool) :
    ofValue entry (.string text) pool = none := by
  rcases entry with ⟨name, method, optional, kind⟩
  cases numeric
  cases kind with
  | string unique => exact encodeNumberText_of_hasNoDigits absent
  | tag exclusive => rfl
  | rating maximum hints => rfl

end SortKey

namespace Query

/-- A comparison of an entry that sorts as a number with an operand that denotes one compiles. It
holds of a record whose value denotes a number exactly if the numbers are so related, those beyond
the greatest magnitude counting as it, and of no record whose text has no digit. -/
theorem holds_comparing_iff_relates {configuration : Configuration} {entry : Entry}
    (configured : configuration.find? entry.name = some entry)
    (numeric : entry.sortingMethod = .asNumber) {operand : String} {asked : Nat}
    (denotes : Text.Denotes operand asked) (relation : Relation) :
    ∃ query, ofCommand? configuration (comparing entry.name relation operand) = some query ∧
      ∀ pool record,
        (∀ value number, record.get? entry.name = some value → value.isEmpty = false →
          value.Denotes entry.kind number →
            (query.holds configuration pool record = true ↔
              relation.Relates (min number 999999999999999999) (min asked 999999999999999999))) ∧
        ∀ text, record.get? entry.name = some (.string text) → Text.HasNoDigits text →
          query.holds configuration pool record = false := by
  have encoded : SortKey.encodeText entry.sortingMethod operand =
      some (SortKey.packInteger asked) := by
    rw [numeric]
    exact SortKey.encodeNumberText_of_denotes denotes
  have sorts : entry.sortingMethod.isActive = true := by
    rw [numeric]
    rfl
  refine ⟨_, (ofCommand?_comparing_eq_some_iff configured).mpr
    ⟨denotes.ne_empty, sorts, _, encoded, rfl⟩, fun pool record => ⟨fun value number stored something
      valueDenotes => ?_, fun text stored absent => ?_⟩⟩
  · have has : record.hasEntry entry.name = true := by
      rw [Record.hasEntry, stored]
      simpa using something
    have keyed : SortKey.ofRecord entry record pool = some (SortKey.packInteger number) := by
      rw [SortKey.ofRecord, stored]
      exact SortKey.ofValue_of_denotes numeric valueDenotes pool
    rw [holds_compare_iff, ← SortKey.greatestMagnitude_eq, ← SortKey.relates_packInteger_iff]
    simp [has, keyed, Relation.holds_iff_relates]
  · refine Bool.eq_false_iff.mpr fun holds => ?_
    rcases holds_compare_iff.mp holds with ⟨_, key, keyed, _⟩
    rw [SortKey.ofRecord, stored] at keyed
    exact absurd (keyed.symm.trans (SortKey.ofValue_of_hasNoDigits numeric absent pool)) (by simp)

/-- Two numbers beyond the greatest magnitude count as the same, whatever zeros and texts stand
before them. -/
theorem holds_comparing_beyond :
    (Configuration.find? (.ofEntries [volume]) volume.name = some volume ∧
      volume.sortingMethod = .asNumber ∧
      Text.Denotes "no. 02000000000000000000" 2000000000000000000 ∧
      (volumeRecord "1000000000000000000 f.").get? volume.name =
        some (.string "1000000000000000000 f.") ∧
      (EntryValue.string "1000000000000000000 f.").isEmpty = false ∧
      EntryValue.Denotes volume.kind (.string "1000000000000000000 f.") 1000000000000000000) ∧
      ∃ query, ofCommand? (.ofEntries [volume])
          (comparing volume.name .equal "no. 02000000000000000000") = some query ∧
        query.holds (.ofEntries [volume]) TagPool.empty
          (volumeRecord "1000000000000000000 f.") = true := by
  have configured : Configuration.find? (.ofEntries [volume]) volume.name = some volume := by
    decide
  have askedRun : Text.FirstRun "no. 02000000000000000000".toList "02000000000000000000".toList :=
    @Text.FirstRun.intro "no. ".toList "02000000000000000000".toList []
      (by simp; decide) (List.all_eq_true.mp rfl) (by decide) (by simp)
  have asked : Text.Denotes "no. 02000000000000000000" 2000000000000000000 :=
    ⟨_, askedRun, by decide, by decide⟩
  have valueRun : Text.FirstRun "1000000000000000000 f.".toList "1000000000000000000".toList :=
    @Text.FirstRun.intro [] "1000000000000000000".toList " f.".toList
      (by simp) (List.all_eq_true.mp rfl) (by decide) (by simp; decide)
  have denoted : Text.Denotes "1000000000000000000 f." 1000000000000000000 :=
    ⟨_, valueRun, by decide, by decide⟩
  have stored : (volumeRecord "1000000000000000000 f.").get? volume.name =
      some (.string "1000000000000000000 f.") := Dict.get?_insert_self _ _ _
  rcases holds_comparing_iff_relates configured rfl asked .equal with ⟨query, compiled, compares⟩
  have related : Relation.equal.Relates (min 1000000000000000000 999999999999999999)
      (min 2000000000000000000 999999999999999999) := by
    show (_ : Nat) = _
    decide
  exact ⟨⟨configured, rfl, asked, stored, by decide, .text false denoted⟩, query, compiled,
    ((compares TagPool.empty _).1 _ _ stored (by decide) (.text false denoted)).mpr related⟩

end Query

end SealedCatalog
