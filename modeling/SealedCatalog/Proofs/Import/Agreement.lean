import SealedCatalog.Proofs.Import.Loading
import SealedCatalog.Proofs.Json.Reading

/-! Texts of records as drafts. A text in which every configured entry has its shape describes a
draft. It is imported exactly when the check finds no problem with the draft, and what is stored is
what the draft is finalized to. -/

namespace SealedCatalog

/-- The draft has no image, and for the configured entries just the values that the fields
describe. -/
structure Draft.Mirrors (draft : Draft) (configuration : Configuration)
    (fields : List (String × Json)) : Prop where
  image : draft.image = none
  entries : ∀ entry ∈ configuration.entries,
    Option.Rel entry.Describes (Dict.findField entry.name fields) (draft.entries.get? entry.name)

namespace Import

/-- What is loaded for the entries where a draft mirrors the fields. -/
def loadedOf (draft : Draft) (entries : List Entry) : List (String × Loaded) :=
  entries.filterMap fun entry =>
    (draft.entries.get? entry.name).map fun value => (entry.name, .ofDraft value)

section Mirrored

variable {draft : Draft} {fields : List (String × Json)} {entries : List Entry}
  (described : ∀ entry ∈ entries,
    Option.Rel entry.Describes (Dict.findField entry.name fields) (draft.entries.get? entry.name))

include described

theorem loadAll_eq_ok_iff {pool : TagPool} {loaded : List (String × Loaded)} :
    loadAll fields pool entries = .ok loaded ↔
      (∀ entry ∈ entries, entry.draftProblem? (draft.entries.get? entry.name) = none) ∧
        loaded = loadedOf draft entries := by
  induction entries generalizing loaded with
  | nil => simp [loadAll, loadedOf, eq_comm]
  | cons entry rest induction =>
      have ⟨here, others⟩ := List.forall_mem_cons.mp described
      rw [List.forall_mem_cons, loadAll]
      cases found : Dict.findField entry.name fields with
      | none =>
          rw [found] at here
          cases drafted : draft.entries.get? entry.name with
          | some value => rw [drafted] at here; cases here
          | none =>
              simp only [requirePresent_bind_eq_ok_iff, induction others, loadedOf,
                List.filterMap_cons, drafted, Option.map_none, Entry.draftProblem?_none_eq_none_iff,
                true_implies, and_assoc]
      | some document =>
          rw [found] at here
          cases drafted : draft.entries.get? entry.name with
          | none => rw [drafted] at here; cases here
          | some value =>
              rw [drafted] at here
              simp only [Outcome.bind_eq_ok_iff, loadEntry_eq_ok_iff (Option.rel_some_some.mp here),
                induction others, Outcome.pure_eq_ok_iff, loadedOf, List.filterMap_cons, drafted,
                Option.map_some]
              constructor
              · rintro ⟨_, ⟨sound, rfl⟩, _, ⟨rests, rfl⟩, rfl⟩
                exact ⟨⟨sound, rests⟩, rfl⟩
              · rintro ⟨⟨sound, rests⟩, rfl⟩
                exact ⟨_, ⟨sound, rfl⟩, _, ⟨rests, rfl⟩, rfl⟩

theorem store_loadedOf (pool : TagPool) (values : Dict EntryValue) :
    store pool values (loadedOf draft entries) = draft.settleEntries pool values entries := by
  induction entries generalizing pool values with
  | nil => rfl
  | cons entry rest induction =>
      have ⟨here, others⟩ := List.forall_mem_cons.mp described
      rw [loadedOf, List.filterMap_cons, Draft.settleEntries]
      cases drafted : draft.entries.get? entry.name with
      | none => exact induction others pool values
      | some value =>
          rw [drafted] at here
          cases found : Dict.findField entry.name fields with
          | none => rw [found] at here; cases here
          | some document =>
              rw [found] at here
              cases Option.rel_some_some.mp here with
              | string kind text =>
                  simp only [Option.map_some, Loaded.ofDraft, store, DraftValue.settle, kind]
                  exact induction others _ _
              | tags kind named =>
                  simp only [Option.map_some, Loaded.ofDraft, store, DraftValue.settle, kind,
                    filterMap_text?_typed, filterMap_index?_typed, List.append_nil]
                  exact induction others _ _
              | rating kind scored bounded commented =>
                  simp only [Option.map_some, Loaded.ofDraft, store, DraftValue.settle, kind]
                  exact induction others _ _

end Mirrored

end Import

theorem Draft.problems_eq_nil_iff {draft : Draft} {imageSupplied : Bool}
    {configuration : Configuration} : draft.problems imageSupplied configuration = [] ↔
      ¬ (configuration.hasImages = true ∧ draft.image = none ∧ imageSupplied = false) ∧
        ∀ entry ∈ configuration.entries,
          entry.draftProblem? (draft.entries.get? entry.name) = none := by
  rw [problems, List.append_eq_nil_iff, List.filterMap_eq_nil_iff]
  refine and_congr_left fun _ => ?_
  cases configuration.hasImages <;> cases draft.image <;> cases imageSupplied <;> simp

theorem Draft.Mirrors.importRecord_eq_ok_iff {draft : Draft} {configuration : Configuration}
    {fields : List (String × Json)} (mirrors : draft.Mirrors configuration fields) {text : String}
    (parsed : Json.parse? text = some (.object fields)) {pool : TagPool} {imageSupplied : Bool}
    {result : Record × TagPool} :
    importRecord configuration text pool imageSupplied = .ok result ↔
      draft.problems imageSupplied configuration = [] ∧
        draft.finalize configuration pool = result := by
  have finalized : draft.finalize configuration pool =
      (⟨none, (draft.settleEntries pool Dict.empty configuration.entries).2⟩,
        (draft.settleEntries pool Dict.empty configuration.entries).1) := by
    rw [Draft.finalize, mirrors.image]
  simp only [importRecord, parsed, Outcome.bind_eq_ok_iff, Import.loadAll_eq_ok_iff mirrors.entries,
    Outcome.ite_throw_eq_ok_iff, Outcome.pure_eq_ok_iff]
  rw [Draft.problems_eq_nil_iff, mirrors.image, finalized]
  constructor
  · rintro ⟨_, ⟨sound, rfl⟩, supplied, rfl⟩
    rw [Import.store_loadedOf mirrors.entries]
    exact ⟨⟨by simpa using supplied, sound⟩, rfl⟩
  · rintro ⟨⟨supplied, sound⟩, rfl⟩
    refine ⟨_, ⟨sound, rfl⟩, by simpa using supplied, ?_⟩
    rw [Import.store_loadedOf mirrors.entries]

/-! The draft that fields describe -/

theorem Draft.Mirrors.exists_describes {draft : Draft} {configuration : Configuration}
    {fields : List (String × Json)} (mirrors : draft.Mirrors configuration fields) :
    ∀ entry ∈ configuration.entries, ∀ document,
      Dict.findField entry.name fields = some document →
        ∃ value, entry.Describes document value := by
  intro entry member document found
  have described := mirrors.entries entry member
  rw [found] at described
  generalize draft.entries.get? entry.name = drafted at described
  cases described with
  | some describes => exact ⟨_, describes⟩

/-- Entries of one name agree on the value to draft under it. -/
private theorem Import.exists_values {fields : List (String × Json)} {entries : List Entry}
    (shaped : ∀ entry ∈ entries, ∀ document, Dict.findField entry.name fields = some document →
      ∃ value, entry.Describes document value) :
    ∃ values : Dict DraftValue,
      (∀ entry ∈ entries, Option.Rel entry.Describes (Dict.findField entry.name fields)
        (values.get? entry.name)) ∧
      ∀ name, Dict.findField name fields = none → values.get? name = none := by
  induction entries with
  | nil => exact ⟨Dict.empty, List.forall_mem_nil _, fun _ _ => rfl⟩
  | cons entry rest induction =>
      have ⟨here, others⟩ := List.forall_mem_cons.mp shaped
      rcases induction others with ⟨values, described, absent⟩
      cases found : Dict.findField entry.name fields with
      | none =>
          refine ⟨values, List.forall_mem_cons.mpr ⟨?_, described⟩, absent⟩
          rw [found, absent entry.name found]
          exact .none
      | some document =>
          rcases here document found with ⟨value, describes⟩
          refine ⟨values.insert entry.name value, List.forall_mem_cons.mpr ⟨?_, ?_⟩, ?_⟩
          · rw [found, Dict.get?_insert_self]
            exact .some describes
          · intro other member
            have agreed := described other member
            by_cases same : entry.name = other.name
            · rw [← same, found] at agreed ⊢
              rw [Dict.get?_insert_self]
              generalize values.get? entry.name = stored at agreed
              cases agreed with
              | some otherDescribes =>
                  rw [describes.unique otherDescribes]
                  exact .some otherDescribes
            · rwa [Dict.get?_insert_of_ne _ same]
          · intro name missing
            have different : entry.name ≠ name := fun same => by
              rw [same, missing] at found
              cases found
            rw [Dict.get?_insert_of_ne _ different, absent name missing]

theorem Draft.exists_mirrors {configuration : Configuration} {fields : List (String × Json)}
    (shaped : ∀ entry ∈ configuration.entries, ∀ document,
      Dict.findField entry.name fields = some document → ∃ value, entry.Describes document value) :
    ∃ draft : Draft, draft.Mirrors configuration fields := by
  rcases Import.exists_values shaped with ⟨values, described, _⟩
  exact ⟨⟨none, values⟩, rfl, described⟩

/-- Texts and drafts are judged alike: where every configured entry that a text mentions has its
shape, the text is imported exactly when the draft that it describes has no problems, and what is
stored is what the draft is finalized to. -/
theorem importRecord_agrees {configuration : Configuration} {text : String}
    {fields : List (String × Json)} (parsed : Json.parse? text = some (.object fields))
    (shaped : ∀ entry ∈ configuration.entries, ∀ document,
      Dict.findField entry.name fields = some document → ∃ value, entry.Describes document value) :
    (∃ draft : Draft, draft.Mirrors configuration fields) ∧
      ∀ draft : Draft, draft.Mirrors configuration fields →
        ∀ (pool : TagPool) (imageSupplied : Bool) (result : Record × TagPool),
          importRecord configuration text pool imageSupplied = .ok result ↔
            draft.problems imageSupplied configuration = [] ∧
              draft.finalize configuration pool = result :=
  ⟨Draft.exists_mirrors shaped, fun _ mirrors _ _ _ => mirrors.importRecord_eq_ok_iff parsed⟩

/-- Albums have a title, genres and a score. -/
def Import.albums : Configuration :=
  .ofEntries [.string "title" .asString, .tag "genre" .asString false, .rating "score" 5]

/-- An album with a repeated genre and an empty comment. -/
def Import.albumFields : List (String × Json) :=
  [("genre", .array [.string "soul", .string "jazz", .string "soul"]),
    ("score", .object [("comment", .string ""), ("score", .int 3)]),
    ("title", .string "Blue")]

def Import.albumDraft : Draft :=
  ⟨none, Dict.ofList [("title", .string "Blue"), ("score", .rating 3 "" false),
    ("genre", .tags [.typed "soul", .typed "jazz", .typed "soul"])]⟩

private theorem Import.parse?_albumFields :
    Json.parse? (Json.object albumFields).render = some (.object albumFields) := by
  have integral : (Json.object albumFields).IsIntegral := by
    refine .object (List.forall_mem_cons.mpr ⟨.array ?_, List.forall_mem_cons.mpr
      ⟨.object ?_, List.forall_mem_singleton.mpr (.string "Blue")⟩⟩)
    · simp [Json.IsIntegral.string]
    · exact List.forall_mem_cons.mpr
        ⟨.string "", List.forall_mem_singleton.mpr (.int (by decide))⟩
  rw [Json.parse?_render integral]
  rfl

private theorem Import.mirrors_albumDraft : albumDraft.Mirrors albums albumFields := by
  refine ⟨rfl, List.forall_mem_cons.mpr ⟨.some (.string rfl "Blue"), List.forall_mem_cons.mpr
    ⟨.some (@Entry.Describes.tags _ _ ["soul", "jazz", "soul"] rfl (by decide)),
      List.forall_mem_singleton.mpr (.some ?_)⟩⟩⟩
  exact @Entry.Describes.rating _ _ _ _ 3 "" rfl rfl (by decide) (.text "")

theorem importRecord_agrees_album :
    (Json.parse? (Json.object Import.albumFields).render = some (.object Import.albumFields) ∧
      ∀ entry ∈ Import.albums.entries, ∀ document,
        Dict.findField entry.name Import.albumFields = some document →
          ∃ value, entry.Describes document value) ∧
      importRecord Import.albums (Json.object Import.albumFields).render TagPool.empty false =
        .ok (⟨none, Dict.ofList [("title", .string "Blue"), ("genre", .tags [0, 1]),
          ("score", .rating 3 none)]⟩, .ofEntries [("genre", ["soul", "jazz"])]) := by
  have parsed := Import.parse?_albumFields
  have shaped := Import.mirrors_albumDraft.exists_describes
  exact ⟨⟨parsed, shaped⟩, ((importRecord_agrees parsed shaped).2 _ Import.mirrors_albumDraft
    TagPool.empty false _).mpr ⟨by decide, by decide⟩⟩

/-! Texts that are imported -/

theorem Import.exists_describes_of_loadAll {fields : List (String × Json)} {pool : TagPool}
    {entries : List Entry} {loaded : List (String × Loaded)}
    (succeeded : loadAll fields pool entries = .ok loaded) :
    ∀ entry ∈ entries, ∀ document, Dict.findField entry.name fields = some document →
      ∃ value, entry.Describes document value := by
  induction entries generalizing loaded with
  | nil => exact List.forall_mem_nil _
  | cons entry rest induction =>
      rw [loadAll] at succeeded
      cases found : Dict.findField entry.name fields with
      | none =>
          simp only [found, requirePresent_bind_eq_ok_iff] at succeeded
          refine List.forall_mem_cons.mpr ⟨fun _ same => ?_, induction succeeded.2⟩
          rw [found] at same
          cases same
      | some document =>
          simp only [found, Outcome.bind_eq_ok_iff] at succeeded
          rcases succeeded with ⟨_, read, _, others, _⟩
          refine List.forall_mem_cons.mpr ⟨fun _ same => ?_, induction others⟩
          rw [found] at same
          cases same
          exact exists_describes_of_loadEntry read

/-- What is imported is what some draft is finalized to, which the check finds no problem with. -/
theorem exists_mirrors_of_importRecord {configuration : Configuration} {text : String}
    {pool : TagPool} {imageSupplied : Bool} {result : Record × TagPool}
    (imported : importRecord configuration text pool imageSupplied = .ok result) :
    ∃ fields, ∃ draft : Draft, Json.parse? text = some (.object fields) ∧
      draft.Mirrors configuration fields ∧ draft.problems imageSupplied configuration = [] ∧
      draft.finalize configuration pool = result := by
  have succeeded := imported
  unfold importRecord at succeeded
  split at succeeded
  next fields parsed =>
    rcases Outcome.bind_eq_ok_iff.mp succeeded with ⟨_, loaded, _⟩
    rcases Draft.exists_mirrors (Import.exists_describes_of_loadAll loaded) with ⟨draft, mirrors⟩
    exact ⟨fields, draft, parsed, mirrors, (mirrors.importRecord_eq_ok_iff parsed).mp imported⟩
  · cases succeeded
  · cases succeeded

end SealedCatalog
