import SealedCatalog.Proofs.SortKey.Indices

/-! Empty values among sorted records. An empty value counts as none, but a text that is sorted as
it is, a score and tags have a key also when they are empty, the least one of their entry. Such a
record stands among those with keys, and moves among those without one when the value is removed. -/

namespace SealedCatalog

/-! ## Removing empty values -/

/-- The record without its value for the entry, if that is empty. -/
def Record.withoutEmpty (record : Record) (entry : String) : Record :=
  if (record.get? entry).any EntryValue.isEmpty then
    { record with entries := record.entries.erase entry }
  else record

theorem Record.get?_withoutEmpty (record : Record) (entry : String) :
    (record.withoutEmpty entry).get? entry =
      (record.get? entry).filter fun value => !value.isEmpty := by
  unfold withoutEmpty
  split
  next empty =>
    rw [get?, Dict.get?_erase, if_pos rfl]
    rcases (Option.any_eq_true_iff_get _ _).mp empty with ⟨present, isEmpty⟩
    rw [← Option.some_get present, Option.filter_some, isEmpty]
    rfl
  next something =>
    cases stored : record.get? entry with
    | none => rfl
    | some value =>
        have present : value.isEmpty = false := by simpa [stored] using something
        rw [Option.filter_some, present]
        rfl

namespace Dict

theorem findField_mapKeyed {α β : Type} (transform : String → α → β) (key : String)
    (fields : List (String × α)) :
    findField key (fields.map fun field => (field.1, transform field.1 field.2)) =
      (findField key fields).map (transform key) := by
  induction fields with
  | nil => rfl
  | cons head rest induction =>
      by_cases same : head.1 = key
      · subst same
        simp [findField]
      · simp [findField, same, induction]

end Dict

namespace Records

/-- The records, of which the chosen ones have lost their values for the entry that are empty. -/
def withoutEmpty (records : Records) (entry : String) (chosen : String → Bool) : Records :=
  ⟨records.toList.map fun field =>
      (field.1, if chosen field.1 then field.2.withoutEmpty entry else field.2),
    List.pairwise_map.mpr records.ascending⟩

variable {records : Records} {entry : Entry} {pool : TagPool} {chosen : String → Bool}

theorem get?_withoutEmpty (records : Records) (entry : String) (chosen : String → Bool)
    (id : String) : (records.withoutEmpty entry chosen).get? id =
      (records.get? id).map fun record =>
        if chosen id then record.withoutEmpty entry else record :=
  Dict.findField_mapKeyed (fun id (record : Record) =>
    if chosen id then record.withoutEmpty entry else record) id records.toList

theorem keys_withoutEmpty (records : Records) (entry : String) (chosen : String → Bool) :
    (records.withoutEmpty entry chosen).keys = records.keys := by
  rw [Dict.keys, withoutEmpty, List.map_map]
  rfl

end Records

/-! ## Keys of empty values -/

def EntryValue.entryType : EntryValue → EntryType
  | string _ => .string
  | tags _ => .tag
  | rating _ _ => .rating

namespace Entry

/-- Whether the empty value of the entry has a key: texts that are sorted as they are, scores that
are sorted as numbers, and tags that are sorted at all. -/
def sortsEmpty (entry : Entry) : Bool :=
  match entry.kind with
  | .string _ => entry.sortingMethod == .asString
  | .tag _ => entry.sortingMethod.isActive
  | .rating _ _ => entry.sortingMethod == .asNumber

def emptyKey (entry : Entry) : String :=
  match entry.kind with
  | .rating _ _ => SortKey.packInteger 0
  | _ => ""

end Entry

namespace SortKey

variable {entry : Entry} {value : EntryValue}

theorem ofValue_of_isEmpty (empty : value.isEmpty = true) (pool : TagPool) :
    ofValue entry value pool =
      if entry.sortsEmpty ∧ value.entryType = entry.entryType then some entry.emptyKey
      else none := by
  rcases entry with ⟨name, method, optional, kind⟩
  cases value with
  | string text =>
      cases String.isEmpty_iff.mp empty
      cases kind <;> cases method <;> rfl
  | tags indices =>
      cases List.isEmpty_iff.mp empty
      cases kind <;> cases method <;> rfl
  | rating score comment =>
      cases (beq_iff_eq.mp empty : score = 0)
      cases kind <;> cases method <;> rfl

theorem empty_lt_of_toList_ne_nil {text : String} (something : text.toList ≠ []) : "" < text := by
  rw [String.lt_iff_toList_lt]
  cases written : text.toList with
  | nil => exact absurd written something
  | cons char rest => exact List.nil_lt_cons char rest

/-- A value that is not empty has no key or one above that of the empty value. -/
theorem emptyKey_lt_of_ofValue (sorts : entry.sortsEmpty = true) (something : value.isEmpty = false)
    {pool : TagPool} {key : String} (keyed : ofValue entry value pool = some key) :
    entry.emptyKey < key := by
  rcases entry with ⟨name, method, optional, kind⟩
  cases kind with
  | string unique =>
      cases (beq_iff_eq.mp sorts : method = .asString)
      cases value with
      | string text =>
          cases keyed
          exact empty_lt_of_toList_ne_nil fun none => by
            simp [EntryValue.isEmpty, String.toList_eq_nil_iff.mp none] at something
      | tags indices | rating score comment => cases keyed
  | tag exclusive =>
      cases value with
      | tags indices =>
          have active : method.isActive = true := sorts
          simp only [ofValue, encodeIndices, active, if_true, Option.some.injEq] at keyed
          subst keyed
          refine empty_lt_of_toList_ne_nil ?_
          cases indices with
          | nil => cases something
          | cons index rest => simp [toList_joinIndices, padded]
      | string text | rating score comment => cases keyed
  | rating maximum hints =>
      cases (beq_iff_eq.mp sorts : method = .asNumber)
      cases value with
      | rating score comment =>
          cases keyed
          have nonzero : score ≠ 0 := by simpa [EntryValue.isEmpty] using something
          have positive : 0 < score.toNat := Nat.pos_of_ne_zero fun zero =>
            nonzero (UInt32.toNat_inj.mp zero)
          have greatest : 0 < greatestMagnitude := by decide
          show packInteger (0 : Nat) < _
          rw [packInteger_lt_packInteger_iff, clamped_natCast, clamped_natCast]
          omega
      | string text | tags indices => cases keyed

end SortKey

/-! ## The order of the records -/

namespace Records

variable {records : Records} {entry : Entry} {pool : TagPool} {descending : Bool}
  {chosen : String → Bool}

/-- The record with the given id has an empty value for the entry, and that value has a key. -/
def SortsEmpty (records : Records) (entry : Entry) (id : String) : Prop :=
  entry.sortsEmpty = true ∧ ∃ record value, records.get? id = some record ∧
    record.get? entry.name = some value ∧ value.isEmpty = true ∧
      value.entryType = entry.entryType

theorem SortsEmpty.keyOf {id : String} (empty : records.SortsEmpty entry id) (pool : TagPool) :
    records.keyOf entry pool id = some entry.emptyKey := by
  rcases empty with ⟨sorts, record, value, found, stored, isEmpty, fits⟩
  rw [keyOf_eq found, SortKey.ofRecord, stored, Option.bind_some,
    SortKey.ofValue_of_isEmpty isEmpty, if_pos ⟨sorts, fits⟩]

theorem emptyKey_lt_of_keyOf (sorts : entry.sortsEmpty = true) {id key : String}
    (keyed : records.keyOf entry pool id = some key) (something : ¬ records.SortsEmpty entry id) :
    entry.emptyKey < key := by
  rcases Option.bind_eq_some_iff.mp keyed with ⟨record, found, ofRecord⟩
  rcases Option.bind_eq_some_iff.mp ofRecord with ⟨value, stored, ofValue⟩
  refine SortKey.emptyKey_lt_of_ofValue sorts (Bool.eq_false_iff.mpr fun isEmpty => ?_) ofValue
  rw [SortKey.ofValue_of_isEmpty isEmpty] at ofValue
  split at ofValue
  next fits => exact something ⟨sorts, record, value, found, stored, isEmpty, fits.2⟩
  next => cases ofValue

/-- The record with the given id is to lose an empty value that has a key. -/
def LosesKey (records : Records) (entry : Entry) (chosen : String → Bool) (id : String) : Prop :=
  chosen id = true ∧ records.SortsEmpty entry id

theorem LosesKey.keyOf_withoutEmpty {id : String} (loses : records.LosesKey entry chosen id)
    (pool : TagPool) :
    (records.withoutEmpty entry.name chosen).keyOf entry pool id = none := by
  rcases loses with ⟨isChosen, _, record, value, found, stored, isEmpty, _⟩
  rw [keyOf, get?_withoutEmpty, found, Option.map_some, if_pos isChosen, Option.bind_some,
    SortKey.ofRecord, Record.get?_withoutEmpty, stored, Option.filter_some, isEmpty]
  rfl

/-- Whoever loses no key keeps the one there is, since no other empty value has a key. -/
theorem keyOf_withoutEmpty_of_not_losesKey {id : String}
    (keeps : ¬ records.LosesKey entry chosen id) (pool : TagPool) :
    (records.withoutEmpty entry.name chosen).keyOf entry pool id =
      records.keyOf entry pool id := by
  rw [keyOf, keyOf, get?_withoutEmpty]
  cases found : records.get? id with
  | none => rfl
  | some record =>
      rw [Option.map_some, Option.bind_some, Option.bind_some]
      split
      next isChosen =>
        rw [SortKey.ofRecord, SortKey.ofRecord, Record.get?_withoutEmpty]
        cases stored : record.get? entry.name with
        | none => rfl
        | some value =>
            rw [Option.filter_some]
            split
            · rfl
            next empty =>
              have isEmpty : value.isEmpty = true := by simpa using empty
              rw [Option.bind_none, Option.bind_some, SortKey.ofValue_of_isEmpty isEmpty]
              refine (if_neg fun fits => keeps ?_).symm
              exact ⟨isChosen, fits.1, record, value, found, stored, isEmpty, fits.2⟩
      · rfl

theorem keyOf_of_keyOf_withoutEmpty {id key : String}
    (keyed : (records.withoutEmpty entry.name chosen).keyOf entry pool id = some key) :
    records.keyOf entry pool id = some key := by
  by_cases loses : records.LosesKey entry chosen id
  · simp [loses.keyOf_withoutEmpty pool] at keyed
  · rwa [keyOf_withoutEmpty_of_not_losesKey loses] at keyed

/-- Where a record that loses the key of its empty value may stand beside another that keeps what it
has. Without a key it comes after all records with one, and is among the others by its id. -/
structure HasPlaceBeside (records : Records) (entry : Entry) (pool : TagPool) (descending : Bool)
    (id other : String) : Prop where
  keyless : records.keyOf entry pool other = none → id < other
  alsoEmpty : records.keyOf entry pool other = some entry.emptyKey → other < id
  something : ∀ key, entry.emptyKey < key → records.keyOf entry pool other = some key →
    descending = true

/-- Each record that loses a key has its place beside each that does not. -/
def HasPlaces (records : Records) (entry : Entry) (pool : TagPool) (descending : Bool)
    (chosen : String → Bool) : Prop :=
  ∀ id, records.LosesKey entry chosen id → ∀ other ∈ records.keys,
    ¬ records.LosesKey entry chosen other → records.HasPlaceBeside entry pool descending id other

/-- A record that loses its key and comes before another that does not has its place only if the
other never had a key. -/
theorem HasPlaceBeside.of_standsBefore {id other : String}
    (loses : records.LosesKey entry chosen id)
    (place : records.HasPlaceBeside entry pool descending id other)
    (before : StandsBefore (records.sortedBy entry pool descending) id other) :
    records.keyOf entry pool other = none ∧ id < other := by
  have idKey := loses.2.keyOf pool
  have idStored := mem_keys_of_keyOf idKey
  cases keyed : records.keyOf entry pool other with
  | none => exact ⟨rfl, place.keyless keyed⟩
  | some key =>
      have otherStored := mem_keys_of_keyOf keyed
      by_cases empty : records.SortsEmpty entry other
      · have otherKey := empty.keyOf pool
        exact absurd (standsBefore_of_keyOf_eq otherStored idStored (otherKey.trans idKey.symm)
          (place.alsoEmpty otherKey)) before.asymm
      · have less := emptyKey_lt_of_keyOf loses.2.1 keyed empty
        cases place.something key less keyed
        exact absurd (standsBefore_sortedBy idKey keyed less).2 before.asymm

/-- If the order stays as it is, a record that loses its key stands before none that has one. -/
theorem hasPlaceBeside_of_sortedBy_eq
    (same : (records.withoutEmpty entry.name chosen).sortedBy entry pool descending =
      records.sortedBy entry pool descending)
    {id other : String} (loses : records.LosesKey entry chosen id) (stored : other ∈ records.keys)
    (keeps : ¬ records.LosesKey entry chosen other) :
    records.HasPlaceBeside entry pool descending id other := by
  have sorted := isStableSort_sortedBy (records.withoutEmpty entry.name chosen) entry pool
    descending
  rw [same] at sorted
  have idKey := loses.2.keyOf pool
  have idStored := mem_keys_of_keyOf idKey
  have lost := loses.keyOf_withoutEmpty pool
  have kept := keyOf_withoutEmpty_of_not_losesKey keeps pool
  have keyless : StandsBefore (records.sortedBy entry pool descending) id other →
      records.keyOf entry pool other = none := fun before =>
    kept.symm.trans (sorted.keyless_of_standsBefore before lost)
  constructor
  case keyless =>
    intro otherKey
    have before : StandsBefore (records.sortedBy entry pool descending) id other :=
      standsBefore_of_not_precedes idStored stored (by rw [otherKey, idKey]; simp)
    exact sorted.lt_of_standsBefore before (lost.trans (kept.trans otherKey).symm)
  case alsoEmpty =>
    intro otherKey
    by_contra notLess
    have different : id ≠ other := fun same => keeps (same ▸ loses)
    have before : StandsBefore (records.sortedBy entry pool descending) id other :=
      standsBefore_of_keyOf_eq idStored stored (idKey.trans otherKey.symm)
        (lt_of_le_of_ne (not_lt.mp notLess) different)
    simp [keyless before] at otherKey
  case something =>
    intro key less keyed
    cases descending with
    | true => rfl
    | false => simp [keyless (standsBefore_sortedBy idKey keyed less).1] at keyed

/-- If each record that loses a key has its place, what stands before what in the old order is in
order without the empty values. -/
theorem inOrder_withoutEmpty
    (places : records.HasPlaces entry pool descending chosen)
    {first second : String}
    (before : StandsBefore (records.sortedBy entry pool descending) first second) :
    ((records.withoutEmpty entry.name chosen).keyOf entry pool first = none →
        (records.withoutEmpty entry.name chosen).keyOf entry pool second = none) ∧
      ((records.withoutEmpty entry.name chosen).keyOf entry pool first =
        (records.withoutEmpty entry.name chosen).keyOf entry pool second → first < second) := by
  have sorted := isStableSort_sortedBy records entry pool descending
  by_cases firstLoses : records.LosesKey entry chosen first
  · by_cases secondLoses : records.LosesKey entry chosen second
    · have tied := (firstLoses.2.keyOf pool).trans (secondLoses.2.keyOf pool).symm
      exact ⟨fun _ => secondLoses.keyOf_withoutEmpty pool,
        fun _ => sorted.lt_of_standsBefore before tied⟩
    · have stored : second ∈ records.keys :=
        sorted.permutes.mem_iff.mp (before.2.subset (by simp))
      have ⟨keyless, less⟩ :=
        (places first firstLoses second stored secondLoses).of_standsBefore firstLoses before
      exact ⟨fun _ => (keyOf_withoutEmpty_of_not_losesKey secondLoses pool).trans keyless,
        fun _ => less⟩
  · rw [keyOf_withoutEmpty_of_not_losesKey firstLoses]
    by_cases secondLoses : records.LosesKey entry chosen second
    · have lost := secondLoses.keyOf_withoutEmpty pool
      refine ⟨fun _ => lost, fun tied => ?_⟩
      have keyless := sorted.keyless_of_standsBefore before (tied.trans lost)
      simp [secondLoses.2.keyOf pool] at keyless
    · rw [keyOf_withoutEmpty_of_not_losesKey secondLoses]
      exact ⟨sorted.keyless_of_standsBefore before, sorted.lt_of_standsBefore before⟩

theorem isStableSort_withoutEmpty
    (places : records.HasPlaces entry pool descending chosen) :
    (records.withoutEmpty entry.name chosen).IsStableSort entry pool descending
      (records.sortedBy entry pool descending) where
  permutes := keys_withoutEmpty records entry.name chosen ▸ perm_sortedBy
  keyedFirst := List.pairwise_iff_forall_sublist.mpr fun listed =>
    (inOrder_withoutEmpty places ⟨nodup_sortedBy, listed⟩).1
  ordered := (isStableSort_sortedBy records entry pool descending).ordered.imp
    fun ordered firstKey firstKeyed secondKey secondKeyed =>
      ordered firstKey (keyOf_of_keyOf_withoutEmpty firstKeyed) secondKey
        (keyOf_of_keyOf_withoutEmpty secondKeyed)
  stable := List.pairwise_iff_forall_sublist.mpr fun listed =>
    (inOrder_withoutEmpty places ⟨nodup_sortedBy, listed⟩).2

/-- Removing empty values leaves the order of the records as it is exactly if the records that lose
a key have their places. -/
theorem sortedBy_withoutEmpty_iff (records : Records) (entry : Entry) (pool : TagPool)
    (descending : Bool) (chosen : String → Bool) :
    (records.withoutEmpty entry.name chosen).sortedBy entry pool descending =
        records.sortedBy entry pool descending ↔
      records.HasPlaces entry pool descending chosen :=
  ⟨fun same _ loses _ stored keeps => hasPlaceBeside_of_sortedBy_eq same loses stored keeps,
    fun places => (isStableSort_withoutEmpty places).eq_sortedBy⟩

/-! Three records, of which one has no stars and one has the score zero -/

def stars : Entry := (Entry.rating "stars" 5).withOptional true

def starred : Records :=
  Dict.ofList [("a", Record.empty), ("b", Record.empty.withEntry stars.name (.rating 0 none)),
    ("c", Record.empty.withEntry stars.name (.rating 3 none))]

/-- A score of zero comes before all others, and after them when it is removed. -/
theorem not_sortedBy_withoutEmpty_stars :
    starred.sortedBy stars TagPool.empty false = ["b", "c", "a"] ∧
      (starred.withoutEmpty stars.name fun _ => true).sortedBy stars TagPool.empty false =
        ["c", "a", "b"] := by
  constructor
  · exact IsStableSort.eq_sortedBy ⟨by decide +kernel, by decide +kernel, by decide +kernel,
      by decide +kernel⟩
  · exact IsStableSort.eq_sortedBy ⟨by decide +kernel, by decide +kernel, by decide +kernel,
      by decide +kernel⟩

end Records

end SealedCatalog
