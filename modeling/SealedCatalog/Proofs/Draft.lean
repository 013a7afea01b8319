import SealedCatalog.Draft
import SealedCatalog.Proofs.TagPool

/-! What drafts are finalized to. The pool only grows, and the record has no value that counts as
none, and only ascending indices of tags that the pool has by then. -/

namespace SealedCatalog

namespace EntryValue

def indices : EntryValue → List Nat
  | tags indices => indices
  | _ => []

/-- The value does not count as none. Its tags are in ascending order, each once, and there are
that many to choose from. -/
structure IsTidy (value : EntryValue) (count : Nat) : Prop where
  present : value.isEmpty = false
  ascending : value.indices.Pairwise (· < ·)
  inRange : ∀ index ∈ value.indices, index < count

theorem IsTidy.mono {value : EntryValue} {count greater : Nat} (tidy : value.IsTidy count)
    (more : count ≤ greater) : value.IsTidy greater :=
  ⟨tidy.present, tidy.ascending, fun index member =>
    Nat.lt_of_lt_of_le (tidy.inRange index member) more⟩

theorem isTidy_of_indices_eq_nil {value : EntryValue} (untagged : value.indices = [])
    (present : value.isEmpty = false) (count : Nat) : value.IsTidy count :=
  ⟨present, untagged ▸ .nil, untagged ▸ List.forall_mem_nil _⟩

end EntryValue

namespace TagPool

/-- The values are tidy for the tags that the pool has for their entries. -/
def Covers (pool : TagPool) (values : Dict EntryValue) : Prop :=
  ∀ field ∈ values.toList, field.2.IsTidy (pool.count field.1)

theorem covers_empty (pool : TagPool) : pool.Covers Dict.empty := List.forall_mem_nil _

theorem Covers.mono {pool extended : TagPool} {values : Dict EntryValue}
    (covers : pool.Covers values) (grown : pool.Extends extended) : extended.Covers values :=
  fun field member => (covers field member).mono (grown.count_le field.1)

theorem Covers.keep {pool : TagPool} {values : Dict EntryValue} (covers : pool.Covers values)
    {entry : String} {value : EntryValue}
    (tidy : value.isEmpty = false → value.IsTidy (pool.count entry)) :
    pool.Covers (Record.keep values entry value) := by
  unfold Record.keep
  split
  · exact covers
  next present =>
    intro field member
    rcases Dict.mem_insertField member with rfl | kept
    · exact tidy (by simpa using present)
    · exact covers field kept

end TagPool

namespace DraftValue

/-- The tags that are chosen by their indices. -/
def indices : DraftValue → List Nat
  | tags chosen => chosen.filterMap DraftTag.index?
  | _ => []

theorem grows_settle (entry : Entry) (pool : TagPool) (value : DraftValue) :
    pool.Grows (value.settle entry pool).1 := by
  unfold settle
  split
  · exact .refl pool
  · exact pool.grows_register entry.name _
  · exact .refl pool
  · exact .refl pool

theorem isTidy_of_settle {entry : Entry} {pool : TagPool} {drafted : DraftValue}
    (inRange : ∀ index ∈ drafted.indices, index < pool.count entry.name) {value : EntryValue}
    (settled : (drafted.settle entry pool).2 = some value) (present : value.isEmpty = false) :
    value.IsTidy ((drafted.settle entry pool).1.count entry.name) := by
  have grown := (grows_settle entry pool drafted).appended
  unfold settle at settled grown ⊢
  split at settled
  · cases settled
    exact EntryValue.isTidy_of_indices_eq_nil rfl present _
  next chosen kind =>
    cases settled
    refine ⟨present, Indices.ascending_sorted _, fun index member => ?_⟩
    simp only [kind] at grown ⊢
    rcases List.mem_append.mp (Indices.mem_sorted.mp member) with registered | pooled
    · exact TagPool.lt_count_of_mem_register registered
    · exact Nat.lt_of_lt_of_le (inRange index pooled) (grown.count_le entry.name)
  · cases settled
    exact EntryValue.isTidy_of_indices_eq_nil rfl present _
  · cases settled

end DraftValue

namespace Draft

/-- The pool has the tags that the draft chooses by their indices for the entries. -/
def InRange (draft : Draft) (entries : List Entry) (pool : TagPool) : Prop :=
  ∀ entry ∈ entries, ∀ value ∈ draft.entries.get? entry.name,
    ∀ index ∈ value.indices, index < pool.count entry.name

theorem InRange.mono {draft : Draft} {entries : List Entry} {pool extended : TagPool}
    (inRange : draft.InRange entries pool) (grown : pool.Extends extended) :
    draft.InRange entries extended := fun entry member value drafted index chosen =>
  Nat.lt_of_lt_of_le (inRange entry member value drafted index chosen) (grown.count_le entry.name)

theorem grows_settleEntries (draft : Draft) (pool : TagPool) (values : Dict EntryValue)
    (entries : List Entry) : pool.Grows (draft.settleEntries pool values entries).1 := by
  induction entries generalizing pool values with
  | nil => exact .refl pool
  | cons entry rest induction =>
      unfold settleEntries
      split
      · exact induction pool values
      next drafted _ =>
        have grown := drafted.grows_settle entry pool
        split
        next extended value settled =>
          rw [settled] at grown
          exact grown.trans (induction extended _)
        next extended settled =>
          rw [settled] at grown
          exact grown.trans (induction extended _)

theorem covers_settleEntries {draft : Draft} {pool : TagPool} {values : Dict EntryValue}
    {entries : List Entry} (inRange : draft.InRange entries pool) (covers : pool.Covers values) :
    (draft.settleEntries pool values entries).1.Covers
      (draft.settleEntries pool values entries).2 := by
  induction entries generalizing pool values with
  | nil => exact covers
  | cons entry rest induction =>
      have ⟨here, others⟩ := List.forall_mem_cons.mp inRange
      unfold settleEntries
      split
      · exact induction others covers
      next drafted found =>
        have grown := (drafted.grows_settle entry pool).appended
        have tidy := @DraftValue.isTidy_of_settle entry pool drafted (here drafted found)
        split
        next extended value settled =>
          rw [settled] at grown tidy
          exact induction (InRange.mono others grown) ((covers.mono grown).keep (tidy rfl))
        next extended settled =>
          rw [settled] at grown
          exact induction (InRange.mono others grown) (covers.mono grown)

theorem grows_finalize (draft : Draft) (configuration : Configuration) (pool : TagPool) :
    pool.Grows (draft.finalize configuration pool).2 :=
  draft.grows_settleEntries pool Dict.empty configuration.entries

theorem covers_finalize {draft : Draft} {configuration : Configuration} {pool : TagPool}
    (inRange : draft.InRange configuration.entries pool) :
    (draft.finalize configuration pool).2.Covers (draft.finalize configuration pool).1.entries :=
  covers_settleEntries inRange pool.covers_empty

end Draft

end SealedCatalog
