import SealedCatalog.Proofs.Draft.Stored
import SealedCatalog.Proofs.Import.Agreement
import SealedCatalog.Proofs.Query.Comparison
import SealedCatalog.Proofs.SortKey.Emptiness

/-! Records without problems among sorted and compared records. A value that the check has accepted
has a key if its entry sorts at all, so the record is not put last and some comparison finds it.
Only a value of another type than the entry's has none: the check counts it as missing, which an
optional entry may be. -/

namespace SealedCatalog

theorem DraftValue.fits_ofValue_iff {kind : EntryKind} {value : EntryValue} :
    (ofValue value).fits kind = true ↔ value.entryType = kind.entryType := by
  cases kind <;> cases value <;> simp [ofValue, fits, EntryValue.entryType, EntryKind.entryType]

/-- The keys of values are those that the check asks for. -/
theorem SortKey.isSome_ofValue_iff {entry : Entry} (active : entry.sortingMethod.isActive = true)
    {value : EntryValue} {pool : TagPool} : (ofValue entry value pool).isSome = true ↔
      value.entryType = entry.entryType ∧
        (DraftValue.ofValue value).sorts entry.sortingMethod = true := by
  rcases entry with ⟨name, method, optional, kind⟩
  cases kind with
  | string unique =>
      cases value <;> simp [ofValue, EntryValue.entryType, Entry.entryType, EntryKind.entryType,
        DraftValue.ofValue, DraftValue.sorts]
  | tag exclusive =>
      have keyed : method.isActive = true := active
      cases value <;> simp [ofValue, EntryValue.entryType, Entry.entryType, EntryKind.entryType,
        DraftValue.ofValue, DraftValue.sorts, encodeIndices, keyed]
  | rating maximumScore hints =>
      cases value <;> simp [ofValue, EntryValue.entryType, Entry.entryType, EntryKind.entryType,
        DraftValue.ofValue, DraftValue.sorts]

namespace Entry

variable {entry : Entry} {value : EntryValue}

/-- A value that is accepted is of the entry's type and sorts, or it counts as missing. -/
theorem sorts_or_optional_of_sound (sound : entry.draftProblem? (some (.ofValue value)) = none)
    (present : value.isEmpty = false) (active : entry.sortingMethod.isActive = true) :
    value.entryType = entry.entryType ∧
        (DraftValue.ofValue value).sorts entry.sortingMethod = true ∨
      value.entryType ≠ entry.entryType ∧ entry.optional = true := by
  have filled : (DraftValue.ofValue value).isEmpty = false :=
    (DraftValue.isEmpty_ofValue value).trans present
  by_cases typed : value.entryType = entry.entryType
  · have fits := DraftValue.fits_ofValue_iff.mpr typed
    have unproblematic := ((draftProblem?_some_eq_none_iff fits).mp sound).2 filled
    exact .inl ⟨typed, (DraftValue.problem?_eq_none_iff.mp unproblematic).2 active⟩
  · have foreign : (DraftValue.ofValue value).fits entry.kind = false :=
      Bool.eq_false_iff.mpr (mt DraftValue.fits_ofValue_iff.mp typed)
    refine .inr ⟨typed, draftProblem?_none_eq_none_iff.mp ?_⟩
    rwa [draftProblem?, Option.filter_some, foreign] at sound

end Entry

section

variable {configuration : Configuration} {record : Record} {entry : Entry} {pool : TagPool}

/-- A key has one relation to each target, so a record with a key is found by one comparison. -/
theorem Query.existsUnique_holds_compare (present : record.hasEntry entry.name = true)
    {key : String} (keyed : SortKey.ofRecord entry record pool = some key)
    (target operand : String) : ∃! relation,
      (compare entry relation target operand).holds configuration pool record = true := by
  refine ⟨.ofKeys key target, holds_compare_iff.mpr
    ⟨present, key, keyed, Relation.holds_iff_eq_ofKeys.mpr rfl⟩, fun relation holds => ?_⟩
  rcases holds_compare_iff.mp holds with ⟨_, other, otherKeyed, related⟩
  rw [Option.some.inj (keyed.symm.trans otherKeyed)]
  exact Relation.holds_iff_eq_ofKeys.mp related

/-- A record with a key stands before all records without one, in both directions. -/
theorem Records.standsBefore_of_keyless {records : Records} {descending : Bool}
    {id other key : String} (keyed : records.keyOf entry pool id = some key)
    (stored : other ∈ records.keys) (keyless : records.keyOf entry pool other = none) :
    StandsBefore (records.sortedBy entry pool descending) id other := by
  apply standsBefore_of_not_precedes (mem_keys_of_keyOf keyed) stored
  rw [keyed, keyless, SortKey.precedes_none_some]
  exact Bool.false_ne_true

theorem Record.exists_of_hasEntry {name : String} (present : record.hasEntry name = true) :
    ∃ value, record.get? name = some value ∧ value.isEmpty = false := by
  unfold hasEntry at present
  split at present
  next value found => exact ⟨value, found, by simpa using present⟩
  next => cases present

/-- Records without problems sort. The value of such a record for an entry that sorts has a key
exactly if it is of the entry's type, which it is if the entry is required. With such a value the
record stands before all records without a key, and exactly one comparison with any target finds
it. -/
theorem Record.sorts_of_sound (sound : record.problems configuration = [])
    (configured : entry ∈ configuration.entries) (active : entry.sortingMethod.isActive = true)
    (present : record.hasEntry entry.name = true) (pool : TagPool) :
    ∃ value, record.get? entry.name = some value ∧
      ((SortKey.ofValue entry value pool).isSome = true ↔ value.entryType = entry.entryType) ∧
      (entry.optional = false → value.entryType = entry.entryType) ∧
      (value.entryType = entry.entryType →
        (∀ target operand, ∃! relation, (Query.compare entry relation target operand).holds
          configuration pool record = true) ∧
        ∀ (records : Records) (id : String), records.get? id = some record →
          ∀ other ∈ records.keys, records.keyOf entry pool other = none → ∀ descending,
            StandsBefore (records.sortedBy entry pool descending) id other) := by
  obtain ⟨value, stored, filled⟩ := exists_of_hasEntry present
  have judged := (Draft.problems_eq_nil_iff.mp sound).2 entry configured
  rw [Draft.get?_ofRecord, stored, Option.map_some] at judged
  have sorts := Entry.sorts_or_optional_of_sound judged filled active
  have keyed : (SortKey.ofValue entry value pool).isSome = true ↔
      value.entryType = entry.entryType := by
    rw [SortKey.isSome_ofValue_iff active]
    refine and_iff_left_of_imp fun typed => ?_
    exact (sorts.resolve_right fun foreign => foreign.1 typed).2
  refine ⟨value, stored, keyed, fun required => ?_, fun typed => ?_⟩
  · refine (sorts.resolve_right fun foreign => ?_).1
    exact Bool.false_ne_true (required.symm.trans foreign.2)
  · obtain ⟨key, ofValue⟩ := Option.isSome_iff_exists.mp (keyed.mpr typed)
    have ofRecord : SortKey.ofRecord entry record pool = some key := by
      rw [SortKey.ofRecord, stored, Option.bind_some, ofValue]
    refine ⟨Query.existsUnique_holds_compare present ofRecord, ?_⟩
    intro records id found other otherStored keyless descending
    exact Records.standsBefore_of_keyless ((Records.keyOf_eq found).trans ofRecord) otherStored
      keyless

end

/-! A genre that sorts, and a title that holds tags -/

namespace Query

def titled : Configuration :=
  .ofEntries [(Entry.string "title" .asString).withOptional true, .tag "genre" .asDate false]

def titledRecord : Record :=
  ⟨none, Dict.ofList [("title", .tags [0]), ("genre", .tags [1, 3])]⟩

/-- Tags have keys even when they are to be sorted as dates. -/
theorem sorts_of_sound_genre :
    (titledRecord.problems titled = [] ∧ Entry.tag "genre" .asDate false ∈ titled.entries ∧
      titledRecord.hasEntry "genre" = true) ∧
    ∀ target operand, ∃! relation, (Query.compare (.tag "genre" .asDate false) relation target
      operand).holds titled TagPool.empty titledRecord = true := by
  have sound : titledRecord.problems titled = [] := by decide
  have configured : Entry.tag "genre" .asDate false ∈ titled.entries := by decide
  have present : titledRecord.hasEntry "genre" = true := by decide
  obtain ⟨_, _, _, typed, found⟩ := Record.sorts_of_sound sound configured rfl present TagPool.empty
  exact ⟨⟨sound, configured, present⟩, (found (typed rfl)).1⟩

/-- The record has no problems and a value for the title, and yet no comparison finds it. -/
theorem not_sorts_title :
    let title := (Entry.string "title" .asString).withOptional true
    titledRecord.problems titled = [] ∧ title ∈ titled.entries ∧
      title.sortingMethod.isActive = true ∧ titledRecord.hasEntry title.name = true ∧
      SortKey.ofRecord title titledRecord TagPool.empty = none ∧
      ∀ relation target operand, (Query.compare title relation target operand).holds titled
        TagPool.empty titledRecord = false := by
  refine ⟨by decide, by decide, rfl, by decide, rfl, fun relation target operand => ?_⟩
  rw [holds]
  rfl

end Query

end SealedCatalog
