import SealedCatalog.Entry.Codec
import SealedCatalog.Proofs.Marker.Yielding

/-! Schemas are got back from what they are written as exactly when no marker stands among their
names and hints. -/

namespace SealedCatalog

open Json (Fits Yields)

@[simp] theorem SortingMethod.settle_name (method : SortingMethod) :
    Json.settle (.string method.name) = some (.string method.name) := by
  refine Json.settle_eq_string_iff.mpr ⟨rfl, ?_⟩
  cases method <;> decide

@[simp] theorem SortingMethod.ofJson?_name (method : SortingMethod) :
    ofJson? (.string method.name) = some method := by
  cases method <;> decide

@[simp] theorem EntryType.settle_name (entryType : EntryType) :
    Json.settle (.string entryType.name) = some (.string entryType.name) := by
  refine Json.settle_eq_string_iff.mpr ⟨rfl, ?_⟩
  cases entryType <;> decide

@[simp] theorem EntryType.ofJson?_name (entryType : EntryType) :
    ofJson? (.string entryType.name) = some entryType := by
  cases entryType <;> decide

/-- The hints, of which only a rating has any, are a plain list. -/
def EntryKind.IsRevivable : EntryKind → Prop
  | rating _ (some hints) => Marker.IsPlainList hints
  | _ => True

namespace Entry

theorem fits_toJson (entry : Entry) : Fits 2 entry.toJson := by
  rcases entry with ⟨name, method, optional, kind⟩
  cases kind with
  | string | tag => simp [toJson, Json.fits_object_iff, EntryKind.fields]
  | rating maximumScore hints =>
      cases hints <;> simp [toJson, Json.fits_object_iff, EntryKind.fields, Json.fits_array_iff]

structure IsRevivable (entry : Entry) : Prop where
  name : Marker.spellsBytes entry.name = false
  kind : entry.kind.IsRevivable

theorem isRevivable_iff {entry : Entry} :
    entry.IsRevivable ↔ Marker.spellsBytes entry.name = false ∧ entry.kind.IsRevivable :=
  ⟨fun revivable => ⟨revivable.name, revivable.kind⟩, fun both => ⟨both.1, both.2⟩⟩

theorem ignoresOrder_ofJson? : Json.IgnoresOrder ofJson? := by
  intro left right perm
  simp only [ofJson?, EntryKind.ofFields?, Json.field?_perm perm]

theorem yields_iff {entry : Entry} : Yields entry.toJson ofJson? entry ↔ entry.IsRevivable := by
  rcases entry with ⟨name, method, optional, kind⟩
  rw [toJson, Json.yields_object_iff ignoresOrder_ofJson?
      (by cases kind <;> simp [EntryKind.fields]),
    isRevivable_iff, ← Json.yields_string_iff, Json.yields_iff]
  cases kind with
  | string | tag =>
      simp only [EntryKind.fields, Json.exists_settled_cons, Json.exists_settled_nil]
      simp [Json.field?, EntryKind.ofFields?, ofJson?, entryType, EntryKind.entryType,
        EntryKind.IsRevivable, Option.bind_eq_some_iff, -Bool.exists_bool]
  | rating maximumScore hints =>
      rcases Json.yields_iff.mp (Json.yields_uint32 maximumScore) with ⟨score, settled, read⟩
      simp only [EntryKind.fields, Json.exists_settled_cons, Json.exists_settled_nil]
      cases hints with
      | none =>
          simp [Json.field?, EntryKind.ofFields?, ofJson?, entryType, EntryKind.entryType,
            EntryKind.IsRevivable, Option.bind_eq_some_iff, Json.orElse?, EntryKind.hints?,
            Json.orNull?, settled, read, -Bool.exists_bool]
      | some hints =>
          have absent : (Json.listOf? Json.string?) .null = none := rfl
          simp [Json.field?, EntryKind.ofFields?, ofJson?, entryType, EntryKind.entryType,
            EntryKind.IsRevivable, Option.bind_eq_some_iff, Json.orElse?, EntryKind.hints?,
            Json.orNull?_eq_some_iff absent, ← Json.yields_texts_iff, Json.yields_iff, settled,
            read, -Bool.exists_bool]
          grind

end Entry

theorem ImageSize.yields (size : ImageSize) : Yields size.toJson ofJson? size := by
  have ignores : Json.IgnoresOrder ofJson? := Json.ignoresOrder_fields? _ _
  rcases Json.yields_iff.mp (Json.yields_uint32 size.width) with ⟨width, widthSettled, widthRead⟩
  rcases Json.yields_iff.mp (Json.yields_uint32 size.height) with
    ⟨height, heightSettled, heightRead⟩
  rw [toJson, Json.yields_object_iff ignores (by simp)]
  simp only [Json.exists_settled_cons, Json.exists_settled_nil]
  refine ⟨width, widthSettled, height, heightSettled, ?_⟩
  simp [ofJson?, Json.fields?, Json.field?, widthRead, heightRead]

namespace Configuration

theorem fits_toJson (configuration : Configuration) : Fits 4 configuration.toJson := by
  have entries : Fits 3 (.array (configuration.entries.map Entry.toJson)) := by
    simpa [Json.fits_array_iff] using fun entry _ => Entry.fits_toJson entry
  rw [toJson]
  cases configuration.imageSize with
  | none => simpa [Json.fits_object_iff] using entries
  | some size => simpa [Json.fits_object_iff, ImageSize.toJson] using entries

def IsRevivable (configuration : Configuration) : Prop :=
  ∀ entry ∈ configuration.entries, entry.IsRevivable

private theorem yields_entries_iff {entries : List Entry} :
    Yields (.array (entries.map Entry.toJson)) (Json.listOf? Entry.ofJson?) entries ↔
      ∀ entry ∈ entries, entry.IsRevivable := by
  have headed : (entries.map Entry.toJson).head? ≠ some (.string Marker.map) := by
    cases entries <;> simp [Entry.toJson]
  simp only [Json.yields_list_iff, Entry.yields_iff]
  exact ⟨fun both => both.2, fun each => ⟨headed, each⟩⟩

theorem yields_iff {configuration : Configuration} :
    Yields configuration.toJson ofJson? configuration ↔ configuration.IsRevivable := by
  have ignores : Json.IgnoresOrder ofJson? := Json.ignoresOrder_fields? _ _
  rcases configuration with ⟨imageSize, entries⟩
  rw [IsRevivable, ← yields_entries_iff]
  cases imageSize with
  | none =>
      rw [toJson, Json.yields_object_iff ignores (by simp), Json.yields_iff]
      simp only [Json.exists_settled_cons, Json.exists_settled_nil]
      simp [Option.bind_eq_some_iff, ofJson?, Json.fields?, Json.field?, Json.orElse?]
  | some size =>
      have absent : ImageSize.ofJson? .null = none := rfl
      rcases Json.yields_iff.mp size.yields with ⟨sized, settled, read⟩
      rw [toJson, Json.yields_object_iff ignores (by simp), Json.yields_iff]
      simp only [Json.exists_settled_cons, Json.exists_settled_nil]
      simp [Option.bind_eq_some_iff, ofJson?, Json.fields?, Json.field?, Json.orElse?,
        Json.orNull?_eq_some_iff absent, settled, read]

end Configuration

end SealedCatalog
