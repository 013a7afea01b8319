import SealedCatalog.Proofs.Catalog.Change
import SealedCatalog.Proofs.Draft
import SealedCatalog.Proofs.Import.Agreement

/-! Consistency of catalogs. Whatever changes are made, and whether they are refused or not, the
tags of an entry stay distinct and keep their indices, and records hold only tidy values. -/

namespace SealedCatalog

/-! Documents choose no tags by their indices -/

theorem Entry.Describes.indices_eq_nil {entry : Entry} {document : Json} {value : DraftValue}
    (described : entry.Describes document value) : value.indices = [] := by
  cases described with
  | string => rfl
  | @tags _ texts => exact Import.filterMap_index?_typed texts
  | rating => rfl

theorem Draft.Mirrors.inRange {draft : Draft} {configuration : Configuration}
    {fields : List (String × Json)} (mirrors : draft.Mirrors configuration fields)
    (pool : TagPool) : draft.InRange configuration.entries pool := by
  intro entry member value drafted index chosen
  have described := mirrors.entries entry member
  rw [Option.mem_def.mp drafted] at described
  generalize Dict.findField entry.name fields = found at described
  cases described with
  | some describes =>
      rw [describes.indices_eq_nil] at chosen
      cases chosen

/-- No entry has a tag twice, and the values of all records are tidy. -/
structure CatalogData.IsConsistent (data : CatalogData) : Prop where
  distinct : data.tagPool.IsDistinct
  covered : ∀ field ∈ data.records.toList, data.tagPool.Covers field.2.entries

namespace Catalog

/-- The id of the record that is to be stored. -/
def Change.id : Change → String
  | .drafted id _ _ => id
  | .imported id _ _ => id

/-- The catalog has the tags that a draft chooses by their indices. -/
def Change.InRange (data : CatalogData) : Change → Prop
  | .drafted _ draft _ => draft.InRange data.configuration.entries data.tagPool
  | .imported _ _ _ => True

/-- Each change is in range for the catalog that the changes before it lead to. -/
def InRange (catalog : Catalog) : List Change → Prop
  | [] => True
  | change :: rest => change.InRange catalog.data ∧ InRange (catalog.apply change) rest

/-- A change that is refused leaves the records and the tags as they are. Any other stores what some
draft is finalized to. -/
theorem apply_eq_or (catalog : Catalog) (change : Change) :
    ((catalog.apply change).data.records = catalog.data.records ∧
      (catalog.apply change).data.tagPool = catalog.data.tagPool) ∨
    ∃ draft : Draft,
      (change.InRange catalog.data →
        draft.InRange catalog.data.configuration.entries catalog.data.tagPool) ∧
      catalog.apply change = catalog.store change.id
        (draft.finalize catalog.data.configuration catalog.data.tagPool).1
        (draft.finalize catalog.data.configuration catalog.data.tagPool).2 := by
  cases change with
  | drafted id draft imageSupplied =>
      simp only [apply, insertDraft]
      cases draft.problems imageSupplied catalog.data.configuration with
      | nil => exact .inr ⟨draft, fun inRange => inRange, rfl⟩
      | cons => exact .inl ⟨rfl, rfl⟩
  | imported id text imageSupplied =>
      simp only [apply, importRecord]
      cases imported : SealedCatalog.importRecord catalog.data.configuration text
          catalog.data.tagPool imageSupplied with
      | error reason => exact .inl ⟨rfl, rfl⟩
      | ok result =>
          rcases exists_mirrors_of_importRecord imported with
            ⟨fields, draft, _, mirrors, _, finalized⟩
          exact .inr ⟨draft, fun _ => mirrors.inRange _, by rw [finalized]; rfl⟩

theorem grows_apply (catalog : Catalog) (change : Change) :
    catalog.data.tagPool.Grows (catalog.apply change).data.tagPool := by
  rcases catalog.apply_eq_or change with ⟨_, same⟩ | ⟨draft, _, stored⟩
  · rw [same]
    exact .refl _
  · rw [stored]
    exact draft.grows_finalize _ _

theorem isConsistent_apply {catalog : Catalog} (consistent : catalog.data.IsConsistent)
    {change : Change} (inRange : change.InRange catalog.data) :
    (catalog.apply change).data.IsConsistent := by
  have grown := catalog.grows_apply change
  refine ⟨grown.distinct consistent.distinct, ?_⟩
  rcases catalog.apply_eq_or change with ⟨kept, _⟩ | ⟨draft, drafted, stored⟩
  · rw [kept]
    exact fun field member => (consistent.covered field member).mono grown.appended
  · intro field member
    rw [stored] at member grown ⊢
    rcases Dict.mem_insertField member with rfl | older
    · exact Draft.covers_finalize (drafted inRange)
    · exact (consistent.covered field older).mono grown.appended

theorem get?_apply_of_ne (catalog : Catalog) {change : Change} {id : String}
    (different : id ≠ change.id) :
    (catalog.apply change).data.records.get? id = catalog.data.records.get? id := by
  rcases catalog.apply_eq_or change with ⟨kept, _⟩ | ⟨draft, _, stored⟩
  · rw [kept]
  · rw [stored]
    exact Dict.get?_insert_of_ne _ different.symm _

theorem applyAll_append_singleton (catalog : Catalog) (changes : List Change) (change : Change) :
    catalog.applyAll (changes ++ [change]) = (catalog.applyAll changes).apply change := by
  rw [applyAll, List.foldl_append, List.foldl_cons, List.foldl_nil, applyAll]

theorem grows_applyAll (catalog : Catalog) (changes : List Change) :
    catalog.data.tagPool.Grows (catalog.applyAll changes).data.tagPool := by
  induction changes generalizing catalog with
  | nil => exact .refl _
  | cons change rest induction => exact (catalog.grows_apply change).trans (induction _)

theorem isConsistent_applyAll {catalog : Catalog} (consistent : catalog.data.IsConsistent)
    {changes : List Change} (inRange : catalog.InRange changes) :
    (catalog.applyAll changes).data.IsConsistent := by
  induction changes generalizing catalog with
  | nil => exact consistent
  | cons change rest induction =>
      exact induction (isConsistent_apply consistent inRange.1) inRange.2

/-- Changes in range keep a catalog consistent. Every index that has a tag keeps it, and each change
leaves the records of other ids as they are. -/
theorem applyAll_preserves {catalog : Catalog} (consistent : catalog.data.IsConsistent)
    {changes : List Change} (inRange : catalog.InRange changes) :
    (catalog.applyAll changes).data.IsConsistent ∧
      (∀ entry index tag, catalog.data.tagPool.resolve entry index = some tag →
        (catalog.applyAll changes).data.tagPool.resolve entry index = some tag) ∧
      ∀ earlier change later, changes = earlier ++ change :: later → ∀ id, id ≠ change.id →
        (catalog.applyAll (earlier ++ [change])).data.records.get? id =
          (catalog.applyAll earlier).data.records.get? id := by
  refine ⟨isConsistent_applyAll consistent inRange, ?_, ?_⟩
  · intro entry index tag resolved
    have appended := (catalog.grows_applyAll changes).appended
    rw [appended.resolve_eq (by rw [resolved]; rfl), resolved]
  · intro earlier change later _ id different
    rw [applyAll_append_singleton]
    exact get?_apply_of_ne _ different

/-- A catalog with a record that has a tag. -/
def tagged : Catalog :=
  let key : CipherKey := ⟨List.replicate keyLength 1, .both, List.length_replicate⟩
  let configuration : Configuration :=
    .ofEntries [.string "title" .unset, .tag "genre" .asString false]
  { data := { CatalogData.new configuration with
      tags := some (.ofEntries [("genre", ["jazz"])])
      records := Dict.ofList [("a", ⟨none, Dict.ofList [("title", .string "Blue"),
        ("genre", .tags [0])]⟩)] }
    databaseKey := key
    userKey := key
    protection := default
    imageSupport := false }

/-- A draft that chooses a tag and types another, a record with a new tag in the place of the first
one, and two that are refused. -/
def taggings : List Change :=
  [.drafted "b" ⟨none, Dict.ofList [("title", .string "Hejira"),
      ("genre", .tags [.typed "folk", .pooled 0])]⟩ false,
    .imported "a" (Json.object [("genre", .array [.string "soul"]),
      ("title", .string "Mingus")]).render false,
    .drafted "c" Draft.empty false,
    .imported "d" "[]" false]

private theorem isConsistent_tagged : tagged.data.IsConsistent := by
  constructor
  · intro entry
    by_cases same : "genre" = entry
    · subst same
      decide
    · have untagged : tagged.data.tagPool.tags entry = [] :=
        TagPool.tags_insert_of_ne Dict.empty same ["jazz"]
      rw [untagged]
      exact .nil
  · refine List.forall_mem_singleton.mpr (List.forall_mem_cons.mpr ⟨?_, ?_⟩)
    · exact ⟨by decide, by decide, by decide⟩
    · exact List.forall_mem_singleton.mpr ⟨by decide, by decide, by decide⟩

theorem applyAll_preserves_tagged :
    (tagged.data.IsConsistent ∧ tagged.InRange taggings) ∧
      (tagged.applyAll taggings).data.IsConsistent ∧
      (tagged.applyAll taggings).data.tagPool.resolve "genre" 0 = some "jazz" := by
  have consistent := isConsistent_tagged
  have chosen : ∀ entry ∈ tagged.data.configuration.entries, ∀ value ∈
      (Dict.ofList [("title", DraftValue.string "Hejira"),
        ("genre", .tags [.typed "folk", .pooled 0])]).get? entry.name,
      ∀ index ∈ value.indices, index < tagged.data.tagPool.count entry.name := by decide
  have empty : ∀ data : CatalogData, Change.InRange data (.drafted "c" Draft.empty false) :=
    fun _ _ _ _ drafted => (Option.not_mem_none _ drafted).elim
  have inRange : tagged.InRange taggings := ⟨chosen, ⟨trivial, ⟨empty _, ⟨trivial, trivial⟩⟩⟩⟩
  have ⟨still, kept, _⟩ := applyAll_preserves consistent inRange
  exact ⟨⟨consistent, inRange⟩, still, kept "genre" 0 "jazz" (by decide)⟩

end Catalog

end SealedCatalog
