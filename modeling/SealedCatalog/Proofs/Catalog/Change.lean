import SealedCatalog.Catalog

/-! Changes of a catalog's records, which may be refused, and runs of them. -/

namespace SealedCatalog.Catalog

/-- A record that is to be stored. -/
inductive Change where
  | drafted (id : String) (draft : Draft) (imageSupplied : Bool)
  | imported (id text : String) (imageSupplied : Bool)

/-- The catalog after a change, be it refused or not. -/
def apply (catalog : Catalog) : Change → Catalog
  | .drafted id draft imageSupplied =>
      match catalog.insertDraft id draft imageSupplied with
      | .ok changed => changed
      | .error _ => catalog
  | .imported id text imageSupplied => (catalog.importRecord id text imageSupplied).1

def applyAll (catalog : Catalog) (changes : List Change) : Catalog :=
  changes.foldl apply catalog

/-- A change touches nothing but tags and records. -/
theorem exists_apply_eq (catalog : Catalog) (change : Change) :
    ∃ tags records,
      catalog.apply change = { catalog with data := { catalog.data with tags, records } } := by
  cases change with
  | drafted id draft imageSupplied =>
      simp only [apply, insertDraft]
      cases draft.problems imageSupplied catalog.data.configuration with
      | nil => exact ⟨_, _, rfl⟩
      | cons => exact ⟨catalog.data.tags, catalog.data.records, rfl⟩
  | imported id text imageSupplied =>
      simp only [apply, importRecord]
      cases SealedCatalog.importRecord catalog.data.configuration text catalog.data.tagPool
          imageSupplied with
      | ok result => exact ⟨_, _, rfl⟩
      | error reason => exact ⟨_, catalog.data.records, rfl⟩

theorem exists_applyAll_eq (catalog : Catalog) (changes : List Change) :
    ∃ tags records,
      catalog.applyAll changes = { catalog with data := { catalog.data with tags, records } } := by
  induction changes generalizing catalog with
  | nil => exact ⟨catalog.data.tags, catalog.data.records, rfl⟩
  | cons change rest induction =>
      rcases catalog.exists_apply_eq change with ⟨tags, records, changed⟩
      rcases induction (catalog.apply change) with ⟨lastTags, lastRecords, final⟩
      refine ⟨lastTags, lastRecords, ?_⟩
      rw [applyAll, List.foldl_cons, ← applyAll, final, changed]

end SealedCatalog.Catalog
