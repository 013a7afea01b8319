import SealedCatalog.Proofs.Dict
import SealedCatalog.Proofs.Draft.Stored

/-! Records that are edited without a change. Finalizing the draft of a record leaves the pool as it
is and drops from the record what cannot be stored, and a record that holds nothing of that kind
comes back as it was. -/

namespace SealedCatalog

/-- Every value of the record is one of a configured entry of its type and does not count as none,
and its tags are in ascending order, each once. -/
def Record.IsSettled (configuration : Configuration) (record : Record) : Prop :=
  ∀ name value, record.get? name = some value →
    (∃ entry ∈ configuration.entries, entry.name = name ∧
      (DraftValue.ofValue value).fits entry.kind = true) ∧
    value.isEmpty = false ∧ value.indices.Pairwise (· < ·)

namespace DraftValue

variable {pool : TagPool} {entry : String}

theorem ascending_indices_stored (drafted : DraftValue) :
    (drafted.stored pool entry).indices.Pairwise (· < ·) := by
  cases drafted with
  | string text => exact .nil
  | tags chosen => exact Indices.ascending_sorted _
  | rating score comment useComment => exact .nil

theorem filterMap_indexIn?_pooled (indices : List Nat) :
    (indices.map DraftTag.pooled).filterMap (DraftTag.indexIn? pool entry) = indices := by
  rw [List.filterMap_map]
  exact List.filterMap_some

/-- A value with ascending tags is drafted and stored as it was, also one with an empty comment. -/
theorem stored_ofValue {value : EntryValue} (ascending : value.indices.Pairwise (· < ·)) :
    (ofValue value).stored pool entry = value := by
  cases value with
  | string text => rfl
  | tags indices =>
      have sorted : Indices.sorted indices = indices := Indices.sorted_of_ascending ascending
      rw [ofValue, stored, filterMap_indexIn?_pooled, EntryValue.ofIndices, sorted]
  | rating score comment => cases comment <;> rfl

theorem settle_ofValue (entry : Entry) (pool : TagPool) (value : EntryValue) :
    ((ofValue value).settle entry pool).1 = pool := by
  have untyped : ∀ indices : List Nat,
      (indices.map DraftTag.pooled).filterMap DraftTag.text? = [] := fun indices => by
    simp [DraftTag.text?]
  rcases entry with ⟨name, method, optional, kind⟩
  cases kind <;> cases value <;> simp [ofValue, settle, untyped, TagPool.register]

end DraftValue

namespace Draft

variable {record : Record} {configuration : Configuration} {pool : TagPool}

theorem pool_settleEntries_ofRecord (record : Record) (pool : TagPool) (values : Dict EntryValue)
    (entries : List Entry) : ((ofRecord record).settleEntries pool values entries).1 = pool := by
  induction entries generalizing values with
  | nil => rfl
  | cons entry rest induction =>
      rcases (ofRecord record).settleEntries_cons_cases pool values entry rest with
        ⟨drafted, found, _, step⟩ | ⟨_, step⟩
      case inl =>
        obtain ⟨value, _, rfl⟩ : ∃ value, record.get? entry.name = some value ∧
            DraftValue.ofValue value = drafted := by
          simpa [get?_ofRecord] using found
        rw [step, DraftValue.settle_ofValue, induction]
      case inr => rw [step, induction]

theorem pool_finalize_ofRecord (record : Record) (configuration : Configuration)
    (pool : TagPool) : ((ofRecord record).finalize configuration pool).2 = pool :=
  pool_settleEntries_ofRecord record pool Dict.empty configuration.entries

/-- What is finalized is settled. -/
theorem isSettled_finalize (draft : Draft) (configuration : Configuration) (pool : TagPool) :
    (draft.finalize configuration pool).1.IsSettled configuration := by
  intro name value held
  rw [get?_finalize] at held
  obtain ⟨drafted, kept, rfl⟩ := Option.map_eq_some_iff.mp held
  obtain ⟨_, present, entry, configured, named, fits⟩ := kept?_eq_some_iff.mp kept
  refine ⟨⟨entry, configured, named, ?_⟩, ?_, DraftValue.ascending_indices_stored drafted⟩
  · rw [DraftValue.fits_ofValue_stored, fits]
  · rw [(isPooled_finalize draft configuration pool kept).isEmpty_stored, present]

theorem finalize_ofRecord_of_isSettled (settled : record.IsSettled configuration)
    (pool : TagPool) : (ofRecord record).finalize configuration pool = (record, pool) := by
  have values : ∀ name, ((ofRecord record).finalize configuration pool).1.get? name =
      record.get? name := by
    intro name
    rw [get?_finalize]
    cases held : record.get? name with
    | none => simp [kept?, get?_ofRecord, held]
    | some value =>
        obtain ⟨configured, present, ascending⟩ := settled name value held
        have kept : (ofRecord record).kept? configuration.entries name =
            some (DraftValue.ofValue value) :=
          kept?_eq_some_iff.mpr ⟨by rw [get?_ofRecord, held, Option.map_some],
            (DraftValue.isEmpty_ofValue value).trans present, configured⟩
        rw [kept, Option.map_some, DraftValue.stored_ofValue ascending]
  have same : ((ofRecord record).finalize configuration pool).1 = record :=
    congrArg (Record.mk record.image) (Dict.ext_get? values)
  exact Prod.ext same (pool_finalize_ofRecord record configuration pool)

/-- Editing without changes does nothing. A settled record comes back as it was, any other record
becomes one that comes back as it is, and the pool is never changed. -/
theorem finalize_ofRecord (record : Record) (configuration : Configuration) (pool : TagPool) :
    (record.IsSettled configuration →
        (ofRecord record).finalize configuration pool = (record, pool)) ∧
      ∃ once, (ofRecord record).finalize configuration pool = (once, pool) ∧
        (ofRecord once).finalize configuration pool = (once, pool) := by
  refine ⟨fun settled => finalize_ofRecord_of_isSettled settled pool,
    ((ofRecord record).finalize configuration pool).1,
    Prod.ext rfl (pool_finalize_ofRecord record configuration pool), ?_⟩
  exact finalize_ofRecord_of_isSettled ((ofRecord record).isSettled_finalize configuration pool) pool

/-- Repeated tags come back once and in order, an empty comment stays, and what is not configured
is dropped. -/
example :
    (ofRecord ⟨none, Dict.ofList [("genre", .tags [2, 0, 2]), ("stars", .rating 3 (some "")),
        ("title", .string "Blue")]⟩).finalize
      (.ofEntries [.tag "genre" .asString false, .rating "stars" 5]) TagPool.empty =
    (⟨none, Dict.ofList [("genre", .tags [0, 2]), ("stars", .rating 3 (some ""))]⟩,
      TagPool.empty) := by decide

end Draft

end SealedCatalog
