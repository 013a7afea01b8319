import SealedCatalog.Proofs.Marker.Yielding
import SealedCatalog.Record.Codec
import SealedCatalog.TagPool

/-! Records and tags are got back from what they are written as exactly when no marker stands among
their texts. -/

namespace SealedCatalog

open Json (Fits Yields)

theorem ImageRef.fits_toJson (image : ImageRef) : Fits 1 image.toJson := by
  simp [toJson, Json.fits_object_iff]

theorem ImageRef.yields_iff {image : ImageRef} :
    Yields image.toJson ofJson? image ↔ Marker.spellsBytes image.name = false := by
  have ignores : Json.IgnoresOrder ofJson? := Json.ignoresOrder_fields? _ _
  rcases Json.yields_iff.mp (Json.yields_uint32 image.index) with ⟨index, settled, read⟩
  rw [toJson, Json.yields_object_iff ignores (by simp), ← Json.yields_string_iff, Json.yields_iff]
  simp only [Json.exists_settled_cons, Json.exists_settled_nil]
  cases image
  simp_all [Option.bind_eq_some_iff, ofJson?, Json.fields?, Json.field?]

namespace EntryValue

/-- Indices of tags are numbers of 64 bits. -/
def IndicesFit : EntryValue → Prop
  | tags indices => ∀ index ∈ indices, index < Nat.pow 2 64
  | _ => True

instance : DecidablePred IndicesFit
  | string _ => .isTrue trivial
  | tags indices => inferInstanceAs (Decidable (∀ index ∈ indices, index < Nat.pow 2 64))
  | rating _ _ => .isTrue trivial

theorem fits_toJson {value : EntryValue} (fit : value.IndicesFit) : Fits 2 value.toJson := by
  cases value with
  | string text => simp [toJson, Json.fits_object_iff]
  | tags indices =>
      simp only [toJson, Json.fits_object_iff, List.forall_mem_singleton, Json.fits_array_iff,
        List.forall_mem_map, Json.fits_nat_iff]
      exact fit
  | rating score comment => cases comment <;> simp [toJson, Json.fits_object_iff]

/-- Texts that spell no bytes, and indices that fit. -/
def IsRevivable : EntryValue → Prop
  | string text => Marker.spellsBytes text = false
  | tags indices => ∀ index ∈ indices, index < Nat.pow 2 64
  | rating _ comment => ∀ text ∈ comment, Marker.spellsBytes text = false

theorem ignoresOrder_ofJson? : Json.IgnoresOrder ofJson? := by
  intro left right perm
  simp only [ofJson?, string?, tags?, rating?, Json.field?_perm perm]

theorem yields_indices_iff {indices : List Nat} :
    Yields (.array (indices.map fun (index : Nat) => .int index))
        (Json.listOf? (Json.nat? (Nat.pow 2 64))) indices ↔
      ∀ index ∈ indices, index < Nat.pow 2 64 := by
  have headed : (indices.map fun (index : Nat) => Json.int index).head? ≠
      some (.string Marker.map) := by
    cases indices <;> simp
  simp only [Json.yields_list_iff, Json.yields_nat_iff]
  exact ⟨fun both => both.2, fun each => ⟨headed, each⟩⟩

theorem yields_iff {value : EntryValue} :
    Yields value.toJson ofJson? value ↔ value.IsRevivable := by
  cases value with
  | string text =>
      rw [toJson, Json.yields_object_iff ignoresOrder_ofJson? (by simp), IsRevivable,
        ← Json.yields_string_iff, Json.yields_iff]
      simp only [Json.exists_settled_cons, Json.exists_settled_nil]
      simp [Option.bind_eq_some_iff, ofJson?, string?, tags?, rating?, Json.field?]
  | tags indices =>
      rw [toJson, Json.yields_object_iff ignoresOrder_ofJson? (by simp), IsRevivable,
        ← yields_indices_iff, Json.yields_iff]
      simp only [Json.exists_settled_cons, Json.exists_settled_nil]
      simp [Option.bind_eq_some_iff, ofJson?, string?, tags?, rating?, Json.field?]
  | rating score comment =>
      rcases Json.yields_iff.mp (Json.yields_uint32 score) with ⟨number, settled, read⟩
      cases comment with
      | none =>
          rw [toJson, Json.yields_object_iff ignoresOrder_ofJson? (by simp), IsRevivable]
          simp only [Json.exists_settled_cons, Json.exists_settled_nil]
          simp [Option.bind_eq_some_iff, ofJson?, string?, tags?, rating?, Json.field?,
            Json.orElse?, settled, read]
      | some text =>
          rw [toJson, Json.yields_object_iff ignoresOrder_ofJson? (by simp), IsRevivable]
          simp only [Option.mem_some_iff, forall_eq']
          rw [← Json.yields_string_iff, Json.yields_iff]
          have absent : Json.string? .null = none := rfl
          simp only [Json.exists_settled_cons, Json.exists_settled_nil]
          simp [Option.bind_eq_some_iff, ofJson?, string?, tags?, rating?, Json.field?,
            Json.orElse?, Json.orNull?_eq_some_iff absent, settled, read]

end EntryValue

namespace Record

def IndicesFit (record : Record) : Prop :=
  ∀ field ∈ record.entries.toList, field.2.IndicesFit

instance : DecidablePred IndicesFit := fun record =>
  inferInstanceAs (Decidable (∀ field ∈ record.entries.toList, field.2.IndicesFit))

theorem fits_toJson {record : Record} (fit : record.IndicesFit) : Fits 5 record.toJson := by
  have entries : Fits 4 (record.entries.toJson EntryValue.toJson) :=
    Dict.fits_toJson fun field member => EntryValue.fits_toJson (fit field member)
  rw [toJson]
  cases record.image with
  | none => simpa [Json.fits_object_iff] using entries
  | some image =>
      have reference := image.fits_toJson.mono (show 1 ≤ 4 by decide)
      simpa [Json.fits_object_iff] using ⟨reference, entries⟩

structure IsRevivable (record : Record) : Prop where
  image : ∀ image ∈ record.image, Marker.spellsBytes image.name = false
  entries : ∀ field ∈ record.entries.toList,
    Marker.IsPlain field.1 ∧ field.2.IsRevivable

theorem yields_iff {record : Record} :
    Yields record.toJson ofJson? record ↔ record.IsRevivable := by
  have ignores : Json.IgnoresOrder ofJson? := Json.ignoresOrder_fields? _ _
  rcases record with ⟨image, entries⟩
  have inside : Yields (entries.toJson EntryValue.toJson) (Dict.ofJson? EntryValue.ofJson?)
      entries ↔ ∀ field ∈ entries.toList, Marker.IsPlain field.1 ∧ field.2.IsRevivable := by
    simp only [Json.yields_dict_iff, EntryValue.yields_iff]
  rw [Json.yields_iff] at inside
  cases image with
  | none =>
      have conditions : IsRevivable ⟨none, entries⟩ ↔
          ∀ field ∈ entries.toList, Marker.IsPlain field.1 ∧ field.2.IsRevivable :=
        ⟨fun revivable => revivable.entries, fun each => ⟨by simp, each⟩⟩
      rw [conditions, ← inside, toJson, Json.yields_object_iff ignores (by simp)]
      simp only [Json.exists_settled_cons, Json.exists_settled_nil]
      simp [Option.bind_eq_some_iff, ofJson?, Json.fields?, Json.field?, Json.orElse?]
  | some image =>
      have conditions : IsRevivable ⟨some image, entries⟩ ↔
          Marker.spellsBytes image.name = false ∧
            ∀ field ∈ entries.toList, Marker.IsPlain field.1 ∧ field.2.IsRevivable :=
        ⟨fun revivable => ⟨revivable.image image rfl, revivable.entries⟩,
          fun both => ⟨by simpa using both.1, both.2⟩⟩
      have absent : ImageRef.ofJson? .null = none := rfl
      rw [conditions, ← inside, ← ImageRef.yields_iff, toJson,
        Json.yields_object_iff ignores (by simp), Json.yields_iff]
      simp only [Json.exists_settled_cons, Json.exists_settled_nil]
      simp [Option.bind_eq_some_iff, ofJson?, Json.fields?, Json.field?, Json.orElse?,
        Json.orNull?_eq_some_iff absent]
      grind

end Record

namespace TagPool

theorem fits_toJson (pool : TagPool) : Fits 3 pool.toJson := by
  apply Dict.fits_toJson
  intro field _
  simp [Json.fits_array_iff]

/-- Every entry has a plain name and a plain list of tags. -/
def IsRevivable (pool : TagPool) : Prop :=
  ∀ field ∈ pool.pools.toList, Marker.IsPlain field.1 ∧ Marker.IsPlainList field.2

theorem yields_iff {pool : TagPool} : Yields pool.toJson ofJson? pool ↔ pool.IsRevivable := by
  have inside : Yields pool.toJson (Dict.ofJson? tagList?) pool.pools ↔ pool.IsRevivable := by
    show Yields _ _ _ ↔ ∀ field ∈ pool.pools.toList, _
    rw [toJson, Json.yields_dict_iff]
    exact forall₂_congr fun field _ => and_congr_right fun _ => Json.yields_texts_iff
  rw [← inside, Json.yields_iff, Json.yields_iff]
  cases pool
  simp [ofJson?]

end TagPool

end SealedCatalog
