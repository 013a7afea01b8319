import SealedCatalog.Proofs.Codec.CatalogData

/-! A catalog without markers among its texts is got back from its own text. -/

namespace SealedCatalog

namespace Json

mutual

/-- The strings of a document. The keys of its objects are none: they are markers nowhere. -/
def texts : Json → List String
  | string text => [text]
  | array items => textsOfItems items
  | object fields => textsOfFields fields
  | _ => []

def textsOfItems : List Json → List String
  | [] => []
  | item :: rest => texts item ++ textsOfItems rest

def textsOfFields : List (String × Json) → List String
  | [] => []
  | (_, value) :: rest => texts value ++ textsOfFields rest

end

theorem forall_mem_textsOfItems {items : List Json} {property : String → Prop} :
    (∀ text ∈ textsOfItems items, property text) ↔
      ∀ item ∈ items, ∀ text ∈ texts item, property text := by
  induction items with
  | nil => simp [textsOfItems]
  | cons item rest induction =>
      rw [textsOfItems, List.forall_mem_append, List.forall_mem_cons, induction]

theorem forall_mem_textsOfFields {fields : List (String × Json)} {property : String → Prop} :
    (∀ text ∈ textsOfFields fields, property text) ↔
      ∀ field ∈ fields, ∀ text ∈ texts field.2, property text := by
  induction fields with
  | nil => simp [textsOfFields]
  | cons field rest induction =>
      rw [textsOfFields, List.forall_mem_append, List.forall_mem_cons, induction]

theorem isUnmarked_of_texts {document : Json}
    (plain : ∀ text ∈ texts document, Marker.IsPlain text) : document.IsUnmarked := by
  induction document with
  | null => exact .null
  | bool value => exact .bool value
  | int value => exact .int value
  | float value => exact .float value
  | string text => exact .string (plain text (List.mem_singleton_self text)).1
  | array items induction =>
      have each := forall_mem_textsOfItems.mp plain
      refine .array ?_ fun item member => induction item member (each item member)
      intro head
      have first : string Marker.map ∈ items := List.mem_of_mem_head? head
      exact (each _ first Marker.map (List.mem_singleton_self _)).2 rfl
  | object fields induction =>
      have each := forall_mem_textsOfFields.mp plain
      exact .object fun field member => induction field member (each field member)

end Json

theorem Marker.isPlainList_of_forall {texts : List String}
    (plain : ∀ text ∈ texts, IsPlain text) : IsPlainList texts :=
  ⟨fun head => (plain _ (List.mem_of_mem_head? head)).2 rfl,
    fun text member => (plain text member).1⟩

/-! The texts of a catalog -/

def EntryKind.texts : EntryKind → List String
  | rating _ (some hints) => hints
  | _ => []

def Entry.texts (entry : Entry) : List String :=
  entry.name :: entry.kind.texts

def EntryValue.texts : EntryValue → List String
  | string text => [text]
  | tags _ => []
  | rating _ comment => comment.toList

def Record.texts (record : Record) : List String :=
  record.image.toList.map ImageRef.name ++
    record.entries.toList.flatMap fun field => field.1 :: field.2.texts

def TagPool.texts (pool : TagPool) : List String :=
  pool.pools.toList.flatMap fun field => field.1 :: field.2

namespace CatalogData

/-- The texts that a catalog holds: the strings of its settings, the names and hints of its
entries, the names of its pools of images, its tags with the entries they belong to, and the ids
and the texts of its records. -/
def texts (data : CatalogData) : List String :=
  data.settings.texts ++ data.configuration.entries.flatMap Entry.texts ++
    (data.images.toList.flatMap fun images => images.pools.map ImagePool.name) ++
    (data.tags.toList.flatMap fun pool => pool.pools.toList.flatMap fun field =>
      field.1 :: field.2) ++
    data.records.toList.flatMap fun field => field.1 :: field.2.texts

theorem forall_mem_texts_iff {data : CatalogData} {property : String → Prop} :
    (∀ text ∈ data.texts, property text) ↔
      (∀ text ∈ data.settings.texts, property text) ∧
        (∀ entry ∈ data.configuration.entries, ∀ text ∈ entry.texts, property text) ∧
        (∀ images ∈ data.images, ∀ pool ∈ images.pools, property pool.name) ∧
        (∀ pool ∈ data.tags, ∀ text ∈ pool.texts, property text) ∧
        ∀ field ∈ data.records.toList,
          property field.1 ∧ ∀ text ∈ field.2.texts, property text := by
  simp only [texts, TagPool.texts, List.forall_mem_append, List.forall_mem_flatMap, and_assoc,
    List.forall_mem_map, List.forall_mem_cons, Option.mem_toList, Option.mem_def]

end CatalogData

theorem Entry.isRevivable_of_texts {entry : Entry}
    (plain : ∀ text ∈ entry.texts, Marker.IsPlain text) : entry.IsRevivable := by
  have ⟨name, kind⟩ := List.forall_mem_cons.mp plain
  refine ⟨name.1, ?_⟩
  unfold EntryKind.IsRevivable
  split
  next hints written =>
    rw [written] at kind
    exact Marker.isPlainList_of_forall kind
  · trivial

theorem EntryValue.isRevivable_of_texts {value : EntryValue} (fit : value.IndicesFit)
    (plain : ∀ text ∈ value.texts, Marker.IsPlain text) : value.IsRevivable := by
  cases value with
  | string text => exact (plain text (List.mem_singleton_self text)).1
  | tags indices => exact fit
  | rating score comment =>
      intro text written
      exact (plain text (by simpa [texts] using written)).1

theorem Record.isRevivable_of_texts {record : Record} (fit : record.IndicesFit)
    (plain : ∀ text ∈ record.texts, Marker.IsPlain text) : record.IsRevivable := by
  have ⟨image, entries⟩ := List.forall_mem_append.mp plain
  refine ⟨?_, ?_⟩
  · intro reference found
    exact (image reference.name (List.mem_map_of_mem (by simpa using found))).1
  · intro field member
    have ⟨name, value⟩ := List.forall_mem_cons.mp fun text inside =>
      entries text (List.mem_flatMap_of_mem member inside)
    exact ⟨name, EntryValue.isRevivable_of_texts (fit field member) value⟩

namespace CatalogData

theorem isRevivable_of_texts {data : CatalogData} (canonical : data.settings.IsCanonical)
    (fit : data.IndicesFit) (plain : ∀ text ∈ data.texts, Marker.IsPlain text) :
    data.IsRevivable := by
  simp only [texts, List.forall_mem_append] at plain
  rcases plain with ⟨⟨⟨⟨settings, configuration⟩, images⟩, tags⟩, records⟩
  refine ⟨⟨canonical, Json.isUnmarked_of_texts settings⟩, ?_, ?_, ?_, ?_⟩
  · intro entry member
    exact Entry.isRevivable_of_texts fun text inside =>
      configuration text (List.mem_flatMap_of_mem member inside)
  · intro found same pool member
    rw [Option.mem_def.mp same] at images
    exact (images pool.name (by simpa using ⟨pool, member, rfl⟩)).1
  · intro pool same field member
    rw [Option.mem_def.mp same, Option.toList_some, List.flatMap_singleton] at tags
    have ⟨name, each⟩ := List.forall_mem_cons.mp fun text inside =>
      tags text (List.mem_flatMap_of_mem member inside)
    exact ⟨name, Marker.isPlainList_of_forall each⟩
  · intro field member
    have ⟨id, each⟩ := List.forall_mem_cons.mp fun text inside =>
      records text (List.mem_flatMap_of_mem member inside)
    exact ⟨id, Record.isRevivable_of_texts (fit field member) each⟩

/-- Data without markers, as they can stand in memory, that are not nested too deeply. -/
structure IsPlain (data : CatalogData) : Prop where
  texts : ∀ text ∈ data.texts, Marker.IsPlain text
  integral : data.settings.IsIntegral
  /-- Settings are held with their keys in order. -/
  canonical : data.settings.IsCanonical
  /-- Indices are held in 64 bits. -/
  indices : data.IndicesFit
  shallow : data.toJson.depth ≤ Json.maxDepth

theorem IsPlain.isRevivable {data : CatalogData} (plain : data.IsPlain) :
    data.IsRevivable ∧ data.settings.depth + 2 ≤ Json.maxDepth :=
  ⟨isRevivable_of_texts plain.canonical plain.indices plain.texts,
    (depth_toJson_le_iff plain.indices plain.integral).mp plain.shallow⟩

/-- Plain data are got back from their text, whatever characters stand in them and whatever they
leave out. -/
theorem ofText_toText {data : CatalogData} (plain : data.IsPlain) :
    Codable.ofText (Codable.toText data) = .ok data := by
  have revivable := plain.isRevivable
  exact (ofText_toText_iff_isRevivable plain.indices plain.integral).mpr revivable

/-- A catalog with every part that may be left out, and with texts that JSON has to escape. -/
def library : CatalogData where
  writeCounter := 7
  settings := .object
    [("quoted \"", .array [.int (-3), .string "tab\there"]), ("zoom", .null)]
  configuration := {
    imageSize := some ⟨640, 480⟩
    entries := [.string "title" .asString, .tag "genre" .unset true,
      ⟨"stars", .asNumber, true, .rating 5 (some ["poor", "base64:/", "ø"])⟩] }
  images := some ⟨[⟨"shelf", [0, 255, 17]⟩]⟩
  tags := some ⟨Dict.ofList [("genre", ["a\\b", "map:"])]⟩
  records := Dict.ofList [
    ("first", ⟨some ⟨"shelf", 3⟩, Dict.ofList [("title", .string "a \"b\"\n\u0001"),
      ("genre", .tags [0, 1]), ("stars", .rating 4 (some "naïve"))]⟩),
    ("second", ⟨none, Dict.empty⟩)]

theorem ofText_toText_library :
    library.IsPlain ∧ Codable.ofText (Codable.toText library) = .ok library := by
  have canonical : library.settings.IsCanonical := by
    refine .object (by decide) (List.forall_mem_cons.mpr ⟨.array ?_, ?_⟩)
    · exact List.forall_mem_cons.mpr ⟨.int _, List.forall_mem_singleton.mpr (.string _)⟩
    · exact List.forall_mem_singleton.mpr .null
  have integral : library.settings.IsIntegral := by
    refine .object (List.forall_mem_cons.mpr ⟨.array ?_, ?_⟩)
    · exact List.forall_mem_cons.mpr ⟨.int (by decide), List.forall_mem_singleton.mpr (.string _)⟩
    · exact List.forall_mem_singleton.mpr .null
  have plain : library.IsPlain := {
    texts := by decide
    integral := integral
    canonical := canonical
    indices := by decide
    shallow := by decide }
  exact ⟨plain, ofText_toText plain⟩

end CatalogData

end SealedCatalog
