import SealedCatalog.CatalogData
import SealedCatalog.Proofs.Codec.Configuration
import SealedCatalog.Proofs.Codec.Record
import SealedCatalog.Proofs.Codec.Text

/-! What a catalog holds is got back from its text exactly when no marker stands among its texts
and its settings are not nested too deeply. -/

namespace SealedCatalog

open Json (Fits Yields)

theorem ImagePool.yields_iff {pool : ImagePool} :
    Yields pool.toJson ofJson? pool ↔ Marker.spellsBytes pool.name = false := by
  have ignores : Json.IgnoresOrder ofJson? := Json.ignoresOrder_fields? _ _
  rcases Json.yields_iff.mp (Json.yields_bytes pool.bitmap) with ⟨bitmap, settled, read⟩
  rw [toJson, Json.yields_object_iff ignores (by simp), ← Json.yields_string_iff, Json.yields_iff]
  simp only [Json.exists_settled_cons, Json.exists_settled_nil]
  cases pool
  simp_all [Option.bind_eq_some_iff, ofJson?, Json.fields?, Json.field?]

namespace ImagePools

theorem fits_toJson (images : ImagePools) : Fits 3 images.toJson := by
  simp [toJson, Json.fits_object_iff, Json.fits_array_iff, ImagePool.toJson, Bytes.fits_toJson]

def IsRevivable (images : ImagePools) : Prop :=
  ∀ pool ∈ images.pools, Marker.spellsBytes pool.name = false

theorem yields_iff {images : ImagePools} :
    Yields images.toJson ofJson? images ↔ images.IsRevivable := by
  have ignores : Json.IgnoresOrder ofJson? := Json.ignoresOrder_fields? _ _
  have headed : (images.pools.map ImagePool.toJson).head? ≠ some (.string Marker.map) := by
    cases images.pools <;> simp [ImagePool.toJson]
  have inside : Yields (.array (images.pools.map ImagePool.toJson)) (Json.listOf? ImagePool.ofJson?)
      images.pools ↔ images.IsRevivable := by
    simp only [Json.yields_list_iff, ImagePool.yields_iff]
    exact ⟨fun both => both.2, fun each => ⟨headed, each⟩⟩
  rw [← inside, toJson, Json.yields_object_iff ignores (by simp), Json.yields_iff]
  simp only [Json.exists_settled_cons, Json.exists_settled_nil]
  cases images
  simp [Option.bind_eq_some_iff, ofJson?, Json.fields?, Json.field?]

end ImagePools

namespace CatalogData

/-- No marker stands where a text is meant, and the settings are in the form they are read in. -/
structure IsRevivable (data : CatalogData) : Prop where
  settings : data.settings.IsCanonical ∧ data.settings.IsUnmarked
  configuration : data.configuration.IsRevivable
  images : ∀ images ∈ data.images, images.IsRevivable
  tags : ∀ pool ∈ data.tags, pool.IsRevivable
  records : ∀ field ∈ data.records.toList, Marker.IsPlain field.1 ∧ field.2.IsRevivable

private theorem yields_records_iff {records : Records} :
    Yields (records.toJson Record.toJson) (Dict.ofJson? Record.ofJson?) records ↔
      ∀ field ∈ records.toList, Marker.IsPlain field.1 ∧ field.2.IsRevivable := by
  simp only [Json.yields_dict_iff, Record.yields_iff]

private theorem isUnmarked_of_settle {document settled : Json}
    (found : Json.settle document = some settled) : settled.IsUnmarked := by
  cases revived : document.canonical.revive with
  | error reason => simp [Json.settle, revived, Except.toOption] at found
  | ok other =>
      have same : other = settled := by simpa [Json.settle, revived, Except.toOption] using found
      exact same ▸ Json.isUnmarked_of_revive revived

/-- Settings are read in canonical form. -/
private theorem yields_settings_iff {settings : Json} :
    Yields settings (fun document => some document.canonical) settings ↔
      settings.IsCanonical ∧ settings.IsUnmarked := by
  rw [Json.yields_iff]
  constructor
  · rintro ⟨settled, found, same⟩
    rw [Option.some.injEq] at same
    rw [← same]
    exact ⟨Json.isCanonical_canonical settled,
      Json.isUnmarked_canonical (isUnmarked_of_settle found)⟩
  · rintro ⟨canonical, unmarked⟩
    refine ⟨settings, ?_, ?_⟩
    · rw [Json.settle, Json.canonical_of_isCanonical canonical, Json.revive_of_isUnmarked unmarked]
      rfl
    · rw [Json.canonical_of_isCanonical canonical]

private theorem settle_counter (counter : UInt64) :
    Json.settle (.object [("encrypted_counter", Json.ofUInt64 counter)]) =
      some (.object [("encrypted_counter", Json.ofUInt64 counter)]) := rfl

private theorem counter?_written (counter : UInt64) :
    counter? (.object [("encrypted_counter", Json.ofUInt64 counter)]) = some counter :=
  Json.yields_uint64 counter

private theorem yields_configurations_iff {settings : Json} {configuration : Configuration} :
    Yields (.object [("global", settings), ("entry", configuration.toJson)]) configurations?
        (settings, configuration) ↔
      (settings.IsCanonical ∧ settings.IsUnmarked) ∧ configuration.IsRevivable := by
  have ignores : Json.IgnoresOrder configurations? := Json.ignoresOrder_fields? _ _
  rw [Json.yields_object_iff ignores (by simp), ← yields_settings_iff,
    ← Configuration.yields_iff, Json.yields_iff, Json.yields_iff]
  simp only [Json.exists_settled_cons, Json.exists_settled_nil]
  simp [Option.bind_eq_some_iff, configurations?, Json.fields?, Json.field?]
  grind

theorem yields_iff {data : CatalogData} : Yields data.toJson ofJson? data ↔ data.IsRevivable := by
  have ignores : Json.IgnoresOrder ofJson? := Json.ignoresOrder_fields? _ _
  rcases data with ⟨counter, settings, configuration, images, tags, records⟩
  have parts : IsRevivable ⟨counter, settings, configuration, images, tags, records⟩ ↔
      ((settings.IsCanonical ∧ settings.IsUnmarked) ∧ configuration.IsRevivable) ∧
        (∀ found ∈ images, found.IsRevivable) ∧ (∀ pool ∈ tags, pool.IsRevivable) ∧
          ∀ field ∈ records.toList, Marker.IsPlain field.1 ∧ field.2.IsRevivable :=
    ⟨fun ⟨first, second, third, fourth, fifth⟩ => ⟨⟨first, second⟩, third, fourth, fifth⟩,
      fun ⟨⟨first, second⟩, third, fourth, fifth⟩ => ⟨first, second, third, fourth, fifth⟩⟩
  have noImages : ImagePools.ofJson? .null = none := rfl
  have noTags : TagPool.ofJson? .null = none := rfl
  have distinct : ∀ protection configurations written : Json,
      ([("protection", protection), ("configurations", configurations)] ++
        optionalField "images" ImagePools.toJson images ++
        optionalField "tags" TagPool.toJson tags ++ [("data", written)]).Pairwise
          fun left right => left.1 ≠ right.1 := by
    intro protection configurations written
    cases images <;> cases tags <;> simp [optionalField]
  rw [parts, ← yields_configurations_iff, ← yields_records_iff, toJson,
    Json.yields_object_iff ignores (distinct _ _ _), Json.yields_iff, Json.yields_iff]
  simp only [← ImagePools.yields_iff, ← TagPool.yields_iff, Json.yields_iff]
  clear parts distinct ignores
  -- Which of the two optional fields are written decides where the others stand.
  cases images <;> cases tags <;>
    simp only [optionalField, List.append_nil, List.cons_append, List.nil_append,
      Json.exists_settled_cons, Json.exists_settled_nil] <;>
    simp [Option.bind_eq_some_iff, ofJson?, Json.fields?, Json.field?, Json.orElse?,
      Json.orNull?_eq_some_iff noImages, Json.orNull?_eq_some_iff noTags, settle_counter,
      counter?_written] <;>
    grind

/-! Texts -/

def IndicesFit (data : CatalogData) : Prop :=
  ∀ field ∈ data.records.toList, field.2.IndicesFit

instance : DecidablePred IndicesFit := fun data =>
  inferInstanceAs (Decidable (∀ field ∈ data.records.toList, field.2.IndicesFit))

/-- What holds of an object one level up if it holds of the fields, and of all that is written
besides the settings, is decided by the settings. -/
theorem holds_toJson_iff {holds : Nat → Json → Prop}
    (object_iff : ∀ {limit fields},
      holds (limit + 1) (.object fields) ↔ ∀ field ∈ fields, holds limit field.2)
    (of_fits : ∀ {limit document}, Fits limit document → holds limit document)
    {data : CatalogData} (fit : data.IndicesFit) {limit : Nat} (roomy : 6 ≤ limit) :
    holds (limit + 2) data.toJson ↔ holds limit data.settings := by
  have records : Fits (limit + 1) (data.records.toJson Record.toJson) :=
    (Dict.fits_toJson fun field member => Record.fits_toJson (fit field member)).mono (by omega)
  have counter : Fits (limit + 1)
      (.object [("encrypted_counter", Json.ofUInt64 data.writeCounter)]) := by
    simp [Json.fits_object_iff]
  have images : ∀ field ∈ optionalField "images" ImagePools.toJson data.images,
      holds (limit + 1) field.2 := by
    cases data.images with
    | none => simp [optionalField]
    | some images =>
        simpa [optionalField] using of_fits (images.fits_toJson.mono (show 3 ≤ limit + 1 by omega))
  have tags : ∀ field ∈ optionalField "tags" TagPool.toJson data.tags,
      holds (limit + 1) field.2 := by
    cases data.tags with
    | none => simp [optionalField]
    | some pool =>
        simpa [optionalField] using of_fits (pool.fits_toJson.mono (show 3 ≤ limit + 1 by omega))
  have configuration := of_fits (data.configuration.fits_toJson.mono (show 4 ≤ limit by omega))
  have configurations : holds (limit + 1) (.object [("global", data.settings),
      ("entry", data.configuration.toJson)]) ↔ holds limit data.settings := by
    simp [object_iff, configuration]
  rw [toJson, object_iff, List.forall_mem_append, List.forall_mem_append,
    List.forall_mem_append, List.forall_mem_cons, List.forall_mem_singleton,
    List.forall_mem_singleton, configurations]
  simp only [of_fits records, of_fits counter, true_and, and_true]
  exact ⟨fun every => every.1.1, fun settings => ⟨⟨settings, images⟩, tags⟩⟩

/-- Only the settings can be nested too deeply. -/
theorem fits_toJson_iff {data : CatalogData} (fit : data.IndicesFit) {limit : Nat}
    (roomy : 6 ≤ limit) : Fits (limit + 2) data.toJson ↔ Fits limit data.settings :=
  holds_toJson_iff Json.fits_object_iff id fit roomy

theorem isIntegral_toJson {data : CatalogData} (fit : data.IndicesFit)
    (integral : data.settings.IsIntegral) : data.toJson.IsIntegral := by
  have settings : Fits (data.settings.depth + 6) data.settings := ⟨integral, by omega⟩
  exact ((fits_toJson_iff fit (by omega)).mpr settings).integral

theorem depth_toJson_le_iff {data : CatalogData} (fit : data.IndicesFit)
    (integral : data.settings.IsIntegral) :
    data.toJson.depth ≤ Json.maxDepth ↔ data.settings.depth + 2 ≤ Json.maxDepth := by
  have fits := fits_toJson_iff fit (show 6 ≤ 125 by decide)
  have deepest : Json.maxDepth = 125 + 2 := rfl
  rw [deepest, Nat.add_le_add_iff_right]
  constructor
  · intro low
    exact (fits.mp ⟨isIntegral_toJson fit integral, low⟩).shallow
  · intro low
    exact (fits.mpr ⟨integral, low⟩).shallow

/-- The data are got back from their text exactly when no marker stands among their texts and the
settings are not nested too deeply. -/
theorem ofText_toText_iff_isRevivable {data : CatalogData} (fit : data.IndicesFit)
    (integral : data.settings.IsIntegral) :
    Codable.ofText (Codable.toText data) = .ok data ↔
      data.IsRevivable ∧ data.settings.depth + 2 ≤ Json.maxDepth := by
  rw [Codable.ofText_toText_iff (isIntegral_toJson fit integral), and_comm]
  exact and_congr yields_iff (depth_toJson_le_iff fit integral)

end CatalogData

end SealedCatalog
