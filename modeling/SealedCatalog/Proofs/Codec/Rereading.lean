import SealedCatalog.Proofs.Codec.Settings

/-! A catalog without markers among its texts is got back from its text, whatever numbers stand in
its settings. Those of them that are no integers may be read as others, and nothing else changes. -/

namespace SealedCatalog

open Json (Fits IsReadable)

theorem Json.reread_eq_string_iff {document : Json} {text : String} :
    document.reread = string text ↔ document = string text := by
  cases document <;> simp [reread]

theorem Json.IsUnmarked.reread {document : Json} (unmarked : IsUnmarked document) :
    IsUnmarked document.reread := by
  induction unmarked with
  | null => exact .null
  | bool value => exact .bool value
  | int value => exact .int value
  | float value => exact .float _
  | string plain => exact .string plain
  | @array items headed _ induction =>
      rw [reread_array]
      refine .array ?_ fun item member => ?_
      · intro head
        apply headed
        cases items with
        | nil => cases head
        | cons first rest => simpa [reread_eq_string_iff] using head
      · rcases List.mem_map.mp member with ⟨original, originalMember, rfl⟩
        exact induction original originalMember
  | @object fields _ induction =>
      rw [reread_object]
      refine .object fun field member => ?_
      rcases List.mem_map.mp member with ⟨original, originalMember, rfl⟩
      exact induction original originalMember

/-- The texts of a document are read as they are. -/
theorem Json.forall_mem_texts_reread {document : Json} {property : String → Prop} :
    (∀ text ∈ document.reread.texts, property text) ↔ ∀ text ∈ document.texts, property text := by
  induction document with
  | array items induction =>
      rw [reread_array]
      refine forall_mem_textsOfItems.trans (Iff.trans ?_ forall_mem_textsOfItems.symm)
      rw [List.forall_mem_map]
      exact forall₂_congr induction
  | object fields induction =>
      rw [reread_object]
      refine forall_mem_textsOfFields.trans (Iff.trans ?_ forall_mem_textsOfFields.symm)
      rw [List.forall_mem_map]
      exact forall₂_congr induction
  | _ => exact Iff.rfl

namespace CatalogData

/-- The data that are read from the text of the data. -/
def reread (data : CatalogData) : CatalogData :=
  { data with settings := data.settings.reread }

theorem reread_toJson {data : CatalogData} (fit : data.IndicesFit) :
    data.toJson.reread = data.reread.toJson := by
  have records : (data.records.toJson Record.toJson).reread = data.records.toJson Record.toJson :=
    (Dict.fits_toJson fun field member => Record.fits_toJson (fit field member)).integral.reread_eq
  have counter : (Json.ofUInt64 data.writeCounter).reread = Json.ofUInt64 data.writeCounter := rfl
  have configuration : data.configuration.toJson.reread = data.configuration.toJson :=
    data.configuration.fits_toJson.integral.reread_eq
  have images : (optionalField "images" ImagePools.toJson data.images).map
      (fun field => (field.1, field.2.reread)) =
      optionalField "images" ImagePools.toJson data.images := by
    cases data.images with
    | none => rfl
    | some images => simp [optionalField, images.fits_toJson.integral.reread_eq]
  have tags : (optionalField "tags" TagPool.toJson data.tags).map
      (fun field => (field.1, field.2.reread)) =
      optionalField "tags" TagPool.toJson data.tags := by
    cases data.tags with
    | none => rfl
    | some pool => simp [optionalField, pool.fits_toJson.integral.reread_eq]
  simp [toJson, reread, Json.reread_object, records, counter, configuration, images, tags]

theorem parse?_toText {data : CatalogData} (fit : data.IndicesFit)
    (settings : IsReadable (Json.maxDepth - 2) data.settings) :
    Json.parse? (Codable.toText data) = some data.reread.toJson.canonical := by
  have readable : IsReadable (125 + 2) data.toJson :=
    (holds_toJson_iff IsReadable.object_iff Fits.isReadable fit (by decide)).mpr settings
  have shallow : data.toJson.depth ≤ Json.maxDepth := readable.shallow
  show Json.parse? data.toJson.render = _
  rw [Json.parse?_render_of_isWritable readable.writable, if_pos shallow, reread_toJson fit]

/-- The data are got back from their text when no marker stands among their texts and the settings
are not nested too deeply. -/
theorem ofText_toText_of_isRevivable {data : CatalogData} (fit : data.IndicesFit)
    (revivable : data.IsRevivable) (settings : IsReadable (Json.maxDepth - 2) data.settings) :
    Codable.ofText (Codable.toText data) = .ok data.reread := by
  refine (Codable.ofText_eq_ok_iff (parse?_toText fit settings)).mpr (yields_iff.mpr ?_)
  exact ⟨⟨revivable.settings.1.reread, revivable.settings.2.reread⟩, revivable.configuration,
    revivable.images, revivable.tags, revivable.records⟩

/-- Data without markers among their texts that can be written and read again, as often as may
be. -/
structure IsRereadable (data : CatalogData) : Prop where
  texts : ∀ text ∈ data.texts, Marker.IsPlain text
  canonical : data.settings.IsCanonical
  indices : data.IndicesFit
  settings : IsReadable (Json.maxDepth - 2) data.settings

theorem IsRereadable.ofText_toText_eq {data : CatalogData} (rereadable : data.IsRereadable) :
    Codable.ofText (Codable.toText data) = .ok data.reread :=
  ofText_toText_of_isRevivable rereadable.indices
    (isRevivable_of_texts rereadable.canonical rereadable.indices rereadable.texts)
    rereadable.settings

theorem IsRereadable.reread {data : CatalogData} (rereadable : data.IsRereadable) :
    data.reread.IsRereadable where
  texts := by
    have ⟨settings, others⟩ := forall_mem_texts_iff.mp rereadable.texts
    exact forall_mem_texts_iff.mpr ⟨Json.forall_mem_texts_reread.mpr settings, others⟩
  canonical := rereadable.canonical.reread
  indices := rereadable.indices
  settings := rereadable.settings.reread

/-- The data that a text is read as have no marker among their texts, and no string of its settings
spells bytes. -/
structure SpellsNoMarkers (text : String) : Prop where
  texts : ∀ data : CatalogData, Codable.ofText text = .ok data →
    ∀ text ∈ data.texts, Marker.IsPlain text
  settings : ∀ document, Json.parse? text = some document → SpellsNoBytes document

theorem isRereadable_of_ofText {text : String} {data : CatalogData}
    (found : Codable.ofText text = .ok data) (spellsNoMarkers : SpellsNoMarkers text) :
    data.IsRereadable where
  texts := spellsNoMarkers.texts data found
  canonical := (isDecoded_of_ofText found).settings.1
  indices := (isDecoded_of_ofText found).indices
  settings := isReadable_settings found spellsNoMarkers.settings

/-- The settings stand in the written data as they are. -/
private theorem eq_settings_of_hasPart {data : CatalogData} (canonical : data.settings.IsCanonical)
    {configurations settings : Json}
    (outer : Json.HasPart ["configurations"] 1 data.toJson.canonical configurations)
    (inner : Json.HasPart ["global"] 0 configurations settings) : settings = data.settings := by
  rcases Json.exists_of_hasPart_canonical outer with ⟨field, member, named, rfl⟩
  have found : field = ("configurations",
      .object [("global", data.settings), ("entry", data.configuration.toJson)]) := by
    cases images : data.images <;> cases tags : data.tags <;>
      simp [images, tags, optionalField] at member <;> grind
  subst found
  rcases Json.exists_of_hasPart_canonical inner with ⟨part, inside, partNamed, rfl⟩
  have same : part = ("global", data.settings) := by grind
  rw [same, Json.canonical_of_isCanonical canonical]

/-- Rereadable data are written without markers. -/
theorem IsRereadable.spellsNoMarkers {data : CatalogData} (rereadable : data.IsRereadable) :
    SpellsNoMarkers (Codable.toText data) where
  texts := by
    intro found read
    cases rereadable.ofText_toText_eq.symm.trans read
    exact rereadable.reread.texts
  settings := by
    intro document parsed configurations settings outer inner text member
    cases (parse?_toText rereadable.indices rereadable.settings).symm.trans parsed
    have again := rereadable.reread
    rw [eq_settings_of_hasPart again.canonical outer inner] at member
    exact ((forall_mem_texts_iff.mp again.texts).1 text member).1

end CatalogData

end SealedCatalog
