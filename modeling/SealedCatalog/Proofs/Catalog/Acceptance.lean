import Mathlib.Tactic.ByContra
import SealedCatalog.Proofs.Catalog.Consistency

/-! What accepted drafts are stored as. Finalizing a draft keeps its scores and the tags that it
chooses by their indices, and adds no other tags than those it registers. The check of a draft looks
at neither, so a stored record is meaningful exactly when the draft is. -/

namespace SealedCatalog

namespace TagPool

theorem isSome_resolve_iff {pool : TagPool} {entry : String} {index : Nat} :
    (pool.resolve entry index).isSome ↔ index < pool.count entry := by
  simp [resolve, count]

end TagPool

/-! Meaningful values -/

/-- A score is at most the maximum of its entry, and each index of a tag has a tag in the list of its
entry. -/
def EntryValue.IsMeaningful (entry : Entry) (pool : TagPool) (value : EntryValue) : Prop :=
  match entry.kind, value with
  | .rating maximum _, rating score _ => score ≤ maximum
  | .tag _, tags indices => ∀ index ∈ indices, (pool.resolve entry.name index).isSome
  | _, _ => True

/-- All values that the record holds for entries are meaningful. -/
def Record.IsMeaningful (configuration : Configuration) (pool : TagPool) (record : Record) : Prop :=
  ∀ entry ∈ configuration.entries, ∀ value ∈ record.get? entry.name, value.IsMeaningful entry pool

/-- The score that a draft gives is one that the entry allows, and the tags that it chooses by their
indices exist. -/
def DraftValue.IsMeaningful (entry : Entry) (pool : TagPool) (drafted : DraftValue) : Prop :=
  match entry.kind, drafted with
  | .rating maximum _, rating score _ _ => score ≤ maximum
  | .tag _, tags chosen =>
      ∀ index ∈ chosen.filterMap DraftTag.index?, (pool.resolve entry.name index).isSome
  | _, _ => True

def Draft.IsMeaningful (configuration : Configuration) (pool : TagPool) (draft : Draft) : Prop :=
  ∀ entry ∈ configuration.entries, ∀ drafted ∈ draft.entries.get? entry.name,
    drafted.IsMeaningful entry pool

/-! Settled values -/

/-- A value that a drafted value of an entry is stored as. Its tags are the chosen ones and others
that the pool has. -/
inductive Settles (entry : Entry) (pool : TagPool) : DraftValue → EntryValue → Prop
  | string {unique : Bool} {text : String} (kind : entry.kind = .string unique) :
      Settles entry pool (.string text) (.string text)
  | tags {exclusive : Bool} {chosen : List DraftTag} {indices : List Nat}
      (kind : entry.kind = .tag exclusive)
      (kept : ∀ index ∈ chosen.filterMap DraftTag.index?, index ∈ indices)
      (others : ∀ index ∈ indices, index ∈ chosen.filterMap DraftTag.index? ∨
        (pool.resolve entry.name index).isSome) :
      Settles entry pool (.tags chosen) (.tags indices)
  | rating {maximum score : UInt32} {hints : Option (List String)} {comment : String}
      {useComment : Bool} {stored : Option String} (kind : entry.kind = .rating maximum hints) :
      Settles entry pool (.rating score comment useComment) (.rating score stored)

namespace Settles

variable {entry other : Entry} {pool extended : TagPool} {drafted : DraftValue} {value : EntryValue}

theorem mono (settles : Settles entry pool drafted value) (grown : pool.Extends extended) :
    Settles entry extended drafted value := by
  cases settles with
  | string kind => exact .string kind
  | tags kind kept others =>
      refine .tags kind kept fun index member => (others index member).imp_right fun resolved => ?_
      rwa [grown.resolve_eq resolved]
  | rating kind => exact .rating kind

theorem fits (settles : Settles entry pool drafted value) :
    (DraftValue.ofValue value).fits entry.kind = true := by
  cases settles with
  | string kind | tags kind | rating kind => rw [kind]; rfl

/-- The stored value and the drafted one are meaningful for the same entries of that name. -/
theorem isMeaningful_iff (settles : Settles entry pool drafted value)
    (same : other.name = entry.name) :
    value.IsMeaningful other pool ↔ drafted.IsMeaningful other pool := by
  unfold EntryValue.IsMeaningful DraftValue.IsMeaningful
  cases settles with
  | string kind => cases other.kind <;> exact Iff.rfl
  | rating kind => cases other.kind <;> exact Iff.rfl
  | tags kind kept others =>
      cases other.kind with
      | string unique => exact Iff.rfl
      | rating maximum hints => exact Iff.rfl
      | tag exclusive =>
          rw [same]
          constructor
          · exact fun resolved index chosen => resolved index (kept index chosen)
          · exact fun resolved index member => (others index member).elim (resolved index) id

end Settles

namespace DraftValue

theorem settles_of_settle {entry : Entry} {pool extended : TagPool} {drafted : DraftValue}
    {value : EntryValue} (settled : drafted.settle entry pool = (extended, some value)) :
    Settles entry extended drafted value := by
  unfold settle at settled
  split at settled
  next kind => cases settled; exact .string kind
  next chosen kind =>
    cases settled
    refine .tags kind ?_ ?_
    · exact fun index member => Indices.mem_sorted.mpr (List.mem_append_right _ member)
    · intro index member
      rcases List.mem_append.mp (Indices.mem_sorted.mp member) with registered | pooled
      · exact .inr (TagPool.isSome_resolve_iff.mpr (TagPool.lt_count_of_mem_register registered))
      · exact .inl pooled
  next kind => cases settled; exact .rating kind
  next => cases settled

/-- A value without meaning is stored: a score above the maximum is not zero, and an index is a tag. -/
theorem exists_settle_of_not_isMeaningful {entry : Entry} {later : TagPool} {drafted : DraftValue}
    (meaningless : ¬ drafted.IsMeaningful entry later) (pool : TagPool) :
    ∃ extended value, drafted.settle entry pool = (extended, some value) ∧
      value.isEmpty = false := by
  unfold IsMeaningful at meaningless
  unfold settle
  split at meaningless
  next maximum hints score comment useComment kind =>
    rw [kind]
    refine ⟨_, _, rfl, ?_⟩
    have positive : score ≠ 0 := fun zero => meaningless (zero ▸ UInt32.zero_le)
    simpa [EntryValue.isEmpty] using positive
  next exclusive chosen kind =>
    rw [kind]
    refine ⟨_, _, rfl, ?_⟩
    obtain ⟨index, member, _⟩ : ∃ index, index ∈ chosen.filterMap DraftTag.index? ∧
        ¬ (later.resolve entry.name index).isSome := by
      simpa only [not_forall, exists_prop] using meaningless
    have listed := Indices.mem_sorted.mpr (List.mem_append_right
      (pool.register entry.name (chosen.filterMap DraftTag.text?)).2 member)
    exact List.isEmpty_eq_false_iff.mpr (List.ne_nil_of_mem listed)
  next => exact absurd trivial meaningless

end DraftValue

namespace Draft

variable {draft : Draft} {pool : TagPool} {values : Dict EntryValue} {entries all : List Entry}

/-- Each of the values is one that the draft holds for an entry, settled. -/
def Accounts (draft : Draft) (all : List Entry) (pool : TagPool) (values : Dict EntryValue) : Prop :=
  ∀ name value, values.get? name = some value → ∃ entry ∈ all, entry.name = name ∧
    ∃ drafted, draft.entries.get? name = some drafted ∧ Settles entry pool drafted value

theorem Accounts.mono {extended : TagPool} (accounts : draft.Accounts all pool values)
    (grown : pool.Extends extended) : draft.Accounts all extended values := by
  intro name value held
  rcases accounts name value held with ⟨entry, member, named, drafted, found, settles⟩
  exact ⟨entry, member, named, drafted, found, settles.mono grown⟩

theorem Accounts.keep (accounts : draft.Accounts all pool values) {entry : Entry}
    (member : entry ∈ all) {drafted : DraftValue} {value : EntryValue}
    (found : draft.entries.get? entry.name = some drafted)
    (settles : Settles entry pool drafted value) :
    draft.Accounts all pool (Record.keep values entry.name value) := by
  unfold Record.keep
  split
  · exact accounts
  · intro name other held
    by_cases same : entry.name = name
    · subst same
      rw [Dict.get?_insert_self] at held
      cases held
      exact ⟨entry, member, rfl, drafted, found, settles⟩
    · rw [Dict.get?_insert_of_ne _ same] at held
      exact accounts name other held

theorem accounts_settleEntries (accounts : draft.Accounts all pool values)
    (configured : ∀ entry ∈ entries, entry ∈ all) :
    draft.Accounts all (draft.settleEntries pool values entries).1
      (draft.settleEntries pool values entries).2 := by
  induction entries generalizing pool values with
  | nil => exact accounts
  | cons entry rest induction =>
      have ⟨here, others⟩ := List.forall_mem_cons.mp configured
      unfold settleEntries
      split
      · exact induction accounts others
      next drafted found =>
        have grown := (drafted.grows_settle entry pool).appended
        split
        next extended value settled =>
          rw [settled] at grown
          have settles := DraftValue.settles_of_settle settled
          exact induction ((accounts.mono grown).keep here found settles) others
        next extended settled =>
          rw [settled] at grown
          exact induction (accounts.mono grown) others

theorem isSome_get?_keep {name entry : String} {value : EntryValue}
    (held : (values.get? name).isSome) : ((Record.keep values entry value).get? name).isSome := by
  unfold Record.keep
  split
  · exact held
  · by_cases same : entry = name
    · rw [same, Dict.get?_insert_self]
      rfl
    · rwa [Dict.get?_insert_of_ne _ same]

theorem isSome_get?_settleEntries {name : String} (held : (values.get? name).isSome) :
    ((draft.settleEntries pool values entries).2.get? name).isSome := by
  induction entries generalizing pool values with
  | nil => exact held
  | cons entry rest induction =>
      unfold settleEntries
      split
      · exact induction held
      · split
        · exact induction (isSome_get?_keep held)
        · exact induction held

/-- What a draft holds without meaning for an entry is not dropped. -/
theorem isSome_get?_of_not_isMeaningful {entry : Entry} (configured : entry ∈ entries)
    {drafted : DraftValue} (found : draft.entries.get? entry.name = some drafted) {later : TagPool}
    (meaningless : ¬ drafted.IsMeaningful entry later) :
    ((draft.settleEntries pool values entries).2.get? entry.name).isSome := by
  induction entries generalizing pool values with
  | nil => cases configured
  | cons head rest induction =>
      unfold settleEntries
      rcases List.mem_cons.mp configured with rfl | later
      · obtain ⟨extended, value, settled, present⟩ :=
          DraftValue.exists_settle_of_not_isMeaningful meaningless pool
        simp only [found, settled, Record.keep, present, Bool.false_eq_true, if_false]
        exact isSome_get?_settleEntries (by rw [Dict.get?_insert_self]; rfl)
      · split
        · exact induction later
        · split
          · exact induction later
          · exact induction later

theorem accounts_finalize (draft : Draft) (configuration : Configuration) (pool : TagPool) :
    draft.Accounts configuration.entries (draft.finalize configuration pool).2
      (draft.finalize configuration pool).1.entries :=
  accounts_settleEntries (fun _ _ held => by cases held) fun _ member => member

theorem isMeaningful_finalize_iff (draft : Draft) (configuration : Configuration)
    (pool : TagPool) :
    (draft.finalize configuration pool).1.IsMeaningful configuration
        (draft.finalize configuration pool).2 ↔
      draft.IsMeaningful configuration (draft.finalize configuration pool).2 := by
  have accounts := draft.accounts_finalize configuration pool
  constructor
  · intro meaningful entry member drafted found
    by_contra meaningless
    have stored : ((draft.finalize configuration pool).1.entries.get? entry.name).isSome :=
      isSome_get?_of_not_isMeaningful member found meaningless
    obtain ⟨value, held⟩ := Option.isSome_iff_exists.mp stored
    rcases accounts entry.name value held with ⟨source, _, named, other, drafts, settles⟩
    have same : drafted = other := Option.some.inj (found.symm.trans drafts)
    exact meaningless (same ▸ (settles.isMeaningful_iff named.symm).mp
      (meaningful entry member value held))
  · intro meaningful entry member value held
    rcases accounts entry.name value held with ⟨source, _, named, drafted, found, settles⟩
    exact (settles.isMeaningful_iff named.symm).mpr (meaningful entry member drafted found)

end Draft

namespace Catalog

theorem insertDraft_eq_ok_iff {catalog changed : Catalog} {id : String} {draft : Draft}
    {imageSupplied : Bool} : catalog.insertDraft id draft imageSupplied = .ok changed ↔
      draft.problems imageSupplied catalog.data.configuration = [] ∧
        changed = catalog.store id
          (draft.finalize catalog.data.configuration catalog.data.tagPool).1
          (draft.finalize catalog.data.configuration catalog.data.tagPool).2 := by
  simp only [insertDraft]
  cases draft.problems imageSupplied catalog.data.configuration with
  | nil =>
      constructor
      · intro accepted
        exact ⟨rfl, (Except.ok.inj accepted).symm⟩
      · rintro ⟨_, rfl⟩
        rfl
  | cons =>
      constructor
      · intro accepted
        cases accepted
      · rintro ⟨accepted, _⟩
        cases accepted

/-- An accepted draft is stored with values of the configured entries only. They are meaningful
exactly when those of the draft are: the check asks for neither. -/
theorem insertDraft_isMeaningful_iff {catalog changed : Catalog} {id : String} {draft : Draft}
    {imageSupplied : Bool} (accepted : catalog.insertDraft id draft imageSupplied = .ok changed) :
    ∃ record, changed.data.records.get? id = some record ∧
      (∀ name value, record.get? name = some value →
        ∃ entry ∈ changed.data.configuration.entries, entry.name = name ∧
          (DraftValue.ofValue value).fits entry.kind = true) ∧
      (record.IsMeaningful changed.data.configuration changed.data.tagPool ↔
        draft.IsMeaningful changed.data.configuration changed.data.tagPool) := by
  obtain ⟨_, rfl⟩ := insertDraft_eq_ok_iff.mp accepted
  refine ⟨_, Dict.get?_insert_self _ id _, fun name value held => ?_,
    draft.isMeaningful_finalize_iff _ _⟩
  rcases draft.accounts_finalize _ _ name value held with ⟨entry, member, named, _, _, settles⟩
  exact ⟨entry, member, named, settles.fits⟩

/-- A catalog without records that rates up to five and has one genre. -/
def rated : Catalog :=
  { tagged with data := { tagged.data with
      configuration := .ofEntries [.rating "stars" 5, .tag "genre" .asString false]
      records := Dict.empty } }

def rating (score : UInt32) (genres : List DraftTag) : Draft :=
  ⟨none, Dict.ofList [("stars", .rating score "" false), ("genre", .tags genres)]⟩

theorem insertDraft_isMeaningful_iff_rating :
    ∃ changed, rated.insertDraft "a" (rating 5 [.typed "folk", .pooled 0]) false = .ok changed ∧
      ∃ record, changed.data.records.get? "a" = some record ∧
        record.IsMeaningful changed.data.configuration changed.data.tagPool := by
  have accepted := (@insertDraft_eq_ok_iff rated _ "a" (rating 5 [.typed "folk", .pooled 0])
    false).mpr ⟨by decide, rfl⟩
  obtain ⟨record, stored, _, meaningful⟩ := insertDraft_isMeaningful_iff accepted
  refine ⟨_, accepted, record, stored, meaningful.mpr ?_⟩
  refine List.forall_mem_cons.mpr ⟨?_, List.forall_mem_singleton.mpr ?_⟩
  · rintro _ ⟨⟩
    exact (by decide : (5 : UInt32) ≤ 5)
  · rintro _ ⟨⟩
    show ∀ index ∈ [0], _
    decide

/-- A score above the maximum is stored, and so is the index of a tag that does not exist. -/
theorem not_isMeaningful_rating :
    ∃ changed record, rated.insertDraft "a" (rating 9 [.pooled 7]) false = .ok changed ∧
      changed.data.records.get? "a" = some record ∧
      record.get? "stars" = some (.rating 9 none) ∧
      record.get? "genre" = some (.tags [7]) ∧
      changed.data.tagPool.resolve "genre" 7 = none ∧
      ¬ record.IsMeaningful changed.data.configuration changed.data.tagPool := by
  refine ⟨_, _, insertDraft_eq_ok_iff.mpr ⟨by decide, rfl⟩, Dict.get?_insert_self _ "a" _,
    by decide, by decide, by decide, fun meaningful => ?_⟩
  have allowed : (9 : UInt32) ≤ 5 := meaningful (.rating "stars" 5) List.mem_cons_self _ rfl
  exact absurd allowed (by decide)

end Catalog

end SealedCatalog
