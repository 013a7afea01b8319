import SealedCatalog.Proofs.Draft.Stored

/-! What finalizing a draft leaves in the pool. The tags that the draft types for a configured tag
entry are appended to those of the entry, each once and only if they are new, and the pool has what
it had under all other names. -/

namespace SealedCatalog

/-- The texts of the tags that may be new. -/
def DraftValue.typed : DraftValue → List String
  | tags chosen => chosen.filterMap DraftTag.text?
  | _ => []

/-- The texts of the tags that may be new under the name. -/
def Draft.typed (draft : Draft) (name : String) : List String :=
  ((draft.entries.get? name).map DraftValue.typed).getD []

/-- Among the entries is a tag entry of the name. -/
def HasTagEntry (entries : List Entry) (name : String) : Prop :=
  ∃ entry ∈ entries, entry.name = name ∧ entry.entryType = .tag

instance (entries : List Entry) (name : String) : Decidable (HasTagEntry entries name) :=
  inferInstanceAs (Decidable (∃ entry ∈ entries, entry.name = name ∧ entry.entryType = .tag))

open TagPool (additions additions_append_additions)

theorem hasTagEntry_cons {entry : Entry} {rest : List Entry} {name : String} :
    HasTagEntry (entry :: rest) name ↔
      (entry.name = name ∧ entry.entryType = .tag) ∨ HasTagEntry rest name :=
  List.exists_mem_cons_iff ..

theorem DraftValue.fits_tags_iff {chosen : List DraftTag} {entry : Entry} :
    (tags chosen).fits entry.kind = true ↔ entry.entryType = .tag := by
  rw [Entry.entryType]
  cases entry.kind <;> simp [fits, EntryKind.entryType]

/-- Settling a value registers its new tags for a tag entry, and nothing for any other. -/
theorem DraftValue.get?_settle (drafted : DraftValue) (entry : Entry) (pool : TagPool)
    (name : String) : (drafted.settle entry pool).1.pools.get? name =
      if (entry.name = name ∧ entry.entryType = .tag) ∧ drafted.typed ≠ [] then
        some (pool.tags name ++ additions (pool.tags name) drafted.typed)
      else pool.pools.get? name := by
  rcases entry with ⟨entryName, method, optional, kind⟩
  cases kind with
  | tag exclusive =>
      cases drafted with
      | tags chosen =>
          simp only [settle, typed, TagPool.get?_register, Entry.entryType, EntryKind.entryType,
            and_true]
          by_cases same : entryName = name <;> simp [same]
      | string text | rating score comment useComment => simp [settle, typed]
  | string unique | rating maximum hints =>
      cases drafted <;> simp [settle, Entry.entryType, EntryKind.entryType]

namespace Draft

variable {draft : Draft} {pool : TagPool} {values : Dict EntryValue} {entries : List Entry}
  {name : String}

theorem typed_eq_of_get? {drafted : DraftValue}
    (found : draft.entries.get? name = some drafted) : draft.typed name = drafted.typed := by
  rw [typed, found, Option.map_some, Option.getD_some]

/-- A tag entry for which the draft has no value of its type has nothing to register. -/
theorem typed_eq_nil_of_foreign {entry : Entry} (isTag : entry.entryType = .tag)
    (foreign : ∀ drafted ∈ draft.entries.get? entry.name, drafted.fits entry.kind = false) :
    draft.typed entry.name = [] := by
  cases found : draft.entries.get? entry.name with
  | none => rw [typed, found, Option.map_none, Option.getD_none]
  | some drafted =>
      rw [typed_eq_of_get? found]
      cases drafted with
      | tags chosen =>
          have misfit := Bool.eq_false_iff.mp (foreign _ found)
          exact absurd (DraftValue.fits_tags_iff.mpr isTag) misfit
      | string text | rating score comment useComment => rfl

/-- What the draft types for tag entries is appended, whatever the order of the entries. Entries of
one name append nothing after the first of them. -/
theorem get?_pools_settleEntries :
    (draft.settleEntries pool values entries).1.pools.get? name =
      if HasTagEntry entries name ∧ draft.typed name ≠ [] then
        some (pool.tags name ++ additions (pool.tags name) (draft.typed name))
      else pool.pools.get? name := by
  induction entries generalizing pool values with
  | nil => simp [settleEntries, HasTagEntry]
  | cons entry rest induction =>
      simp only [hasTagEntry_cons]
      rcases draft.settleEntries_cons_cases pool values entry rest with
        ⟨drafted, found, -, step⟩ | ⟨foreign, step⟩
      case inr =>
        have idle : (entry.name = name ∧ entry.entryType = .tag) → draft.typed name = [] := by
          rintro ⟨rfl, isTag⟩
          exact typed_eq_nil_of_foreign isTag foreign
        rw [step, induction]
        refine if_congr (and_congr_left fun some => ?_) rfl rfl
        exact (or_iff_right fun here => some (idle here)).symm
      case inl =>
        have here := drafted.get?_settle entry pool name
        rw [step, induction]
        by_cases registers : (entry.name = name ∧ entry.entryType = .tag) ∧ drafted.typed ≠ []
        · have same : draft.typed name = drafted.typed := registers.1.1 ▸ typed_eq_of_get? found
          rw [if_pos registers] at here
          rw [TagPool.tags, here, Option.getD_some, same, additions_append_additions,
            List.append_nil, ite_self, if_pos ⟨.inl registers.1, registers.2⟩]
        · rw [if_neg registers] at here
          rw [TagPool.tags, here, ← TagPool.tags]
          refine if_congr (and_congr_left fun some => ?_) rfl rfl
          refine (or_iff_right fun configured => registers ⟨configured, ?_⟩).symm
          rwa [← typed_eq_of_get? found, configured.1]

theorem get?_pools_finalize (draft : Draft) (configuration : Configuration) (pool : TagPool)
    (name : String) : (draft.finalize configuration pool).2.pools.get? name =
      if HasTagEntry configuration.entries name ∧ draft.typed name ≠ [] then
        some (pool.tags name ++ additions (pool.tags name) (draft.typed name))
      else pool.pools.get? name :=
  get?_pools_settleEntries

/-- The tags of a configured tag entry after a draft is finalized. -/
theorem tags_finalize (draft : Draft) {configuration : Configuration} (pool : TagPool)
    {name : String} (configured : HasTagEntry configuration.entries name) :
    (draft.finalize configuration pool).2.tags name =
      pool.tags name ++ additions (pool.tags name) (draft.typed name) := by
  rw [TagPool.tags, get?_pools_finalize]
  split
  · rfl
  next idle =>
    have nothing : draft.typed name = [] := by simpa [configured] using idle
    rw [nothing, TagPool.additions_nil, List.append_nil, TagPool.tags]

end Draft

end SealedCatalog
