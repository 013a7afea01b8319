import SealedCatalog.CatalogData
import SealedCatalog.Proofs.Codec.Record
import SealedCatalog.Proofs.Codec.Text
import SealedCatalog.Proofs.Marker.Insertion
import SealedCatalog.Proofs.Marker.Spelling

/-! The maps of records, of catalogs and of tag pools in all their spellings. -/

namespace SealedCatalog

open Json (Gives Takes Yields)

theorem Json.Takes.gives {α β : Type} {read : Json → Option α} {name : String}
    {item? : Json → Option β} {put : β → α → α} (takes : Takes read name item? put)
    (ignores : IgnoresOrder read) {before after : List (String × Json)}
    (absent : ∀ field ∈ before ++ after, field.1 ≠ name) {document : Json} {item : β} {value : α}
    (given : Gives document item? item) (others : Gives (object (before ++ after)) read value) :
    Gives (object (before ++ (name, document) :: after)) read (put item value) :=
  ⟨takes.revived ignores absent given.revived others.revived,
    takes.plain ignores absent given.plain others.plain⟩

namespace EntryValue

/-- What a value is written as. Its texts spell no bytes, and its indices fit. -/
def Spells (document : Json) (value : EntryValue) : Prop :=
  document = value.toJson ∧ value.IsRevivable

theorem ofJson?_toJson {value : EntryValue} (revivable : value.IsRevivable) :
    ofJson? value.toJson = some value := by
  cases value with
  | string text => rfl
  | tags indices =>
      have read : (indices.map fun (index : Nat) => Json.int index).mapM
          (Json.nat? (Nat.pow 2 64)) = some indices := by
        refine mapM_map_eq_some_iff.mpr fun index member => ?_
        rw [Json.nat?_int, if_pos (revivable index member)]
      have listed : Json.listOf? (Json.nat? (Nat.pow 2 64))
        (.array (indices.map fun (index : Nat) => .int index)) = some indices := read
      simp [toJson, ofJson?, string?, tags?, Json.field?, listed]
  | rating score comment =>
      have read : Json.uint32? (Json.ofUInt32 score) = some score :=
        Json.uint32?_eq_some_iff.mpr rfl
      cases comment <;>
        simp [toJson, ofJson?, string?, tags?, rating?, Json.field?, Json.orElse?, Json.orNull?,
          Json.string?, read]

theorem Spells.gives (document : Json) (value : EntryValue) (spelled : Spells document value) :
    Gives document ofJson? value := by
  rw [spelled.1]
  exact ⟨yields_iff.mpr spelled.2, ofJson?_toJson spelled.2⟩

end EntryValue

/-- What a list of tags is written as, when no marker is taken for a tag. -/
def TagPool.SpellsTags (document : Json) (tags : List String) : Prop :=
  document = .array (tags.map .string) ∧ Marker.IsPlainList tags

theorem TagPool.SpellsTags.gives (document : Json) (tags : List String)
    (spelled : SpellsTags document tags) : Gives document tagList? tags := by
  rw [spelled.1]
  refine ⟨Json.yields_texts_iff.mpr spelled.2, ?_⟩
  show (tags.map Json.string).mapM Json.string? = some tags
  exact mapM_map_eq_some_iff.mpr fun _ _ => rfl

theorem ImageRef.gives_toJson {image : ImageRef}
    (plain : Marker.spellsBytes image.name = false) : Gives image.toJson ofJson? image := by
  have index : Json.uint32? (Json.ofUInt32 image.index) = some image.index :=
    Json.uint32?_eq_some_iff.mpr rfl
  refine ⟨yields_iff.mpr plain, ?_⟩
  simp [toJson, ofJson?, Json.fields?, Json.field?, Json.string?, index]

namespace Record

theorem ignoresOrder_ofJson? : Json.IgnoresOrder ofJson? :=
  Json.ignoresOrder_fields? _ _

theorem takes_image : Takes ofJson? "image" ImageRef.ofJson?
    fun image record => { record with image := some image } := by
  refine @Json.takes_fields? Record _ "image" [] [["entries"]] (by decide) _ _ _ ?_
  intro left right document record image leftLength rightLength read given
  match left, leftLength, right, rightLength with
  | [], _, [entries], _ =>
    rcases Option.bind_eq_some_iff.mp read with ⟨_, _, rest⟩
    rcases Option.bind_eq_some_iff.mp rest with ⟨values, found, same⟩
    cases same
    have absent : ImageRef.ofJson? .null = none := rfl
    refine Option.bind_eq_some_iff.mpr ⟨some image, ?_, ?_⟩
    · exact (Json.orNull?_eq_some_iff absent).mpr given
    · exact Option.bind_eq_some_iff.mpr ⟨values, found, rfl⟩

theorem takes_entries : Takes ofJson? "entries" (Dict.ofJson? EntryValue.ofJson?)
    fun entries record => { record with entries } := by
  refine @Json.takes_fields? Record _ "entries" [["image"]] [] (by decide) _ _ _ ?_
  intro left right document record entries leftLength rightLength read given
  match left, leftLength, right, rightLength with
  | [image], _, [], _ =>
    rcases Option.bind_eq_some_iff.mp read with ⟨reference, found, rest⟩
    cases rest
    refine Option.bind_eq_some_iff.mpr ⟨reference, found, ?_⟩
    exact Option.bind_eq_some_iff.mpr ⟨entries, given, rfl⟩

/-- What a record is written as, its entries in any of their spellings. -/
inductive Spells : Json → Record → Prop where
  | written {image : Option ImageRef} {entries : Json} {pairs : List (String × EntryValue)}
      (plain : ∀ reference ∈ image, Marker.spellsBytes reference.name = false)
      (spelled : Dict.Spells EntryValue.Spells entries pairs) :
      Spells (.object (CatalogData.optionalField "image" ImageRef.toJson image ++
        [("entries", entries)])) ⟨image, Dict.ofList pairs⟩

/-- A record without the field of its entries has none. -/
private theorem gives_bare {image : Option ImageRef}
    (plain : ∀ reference ∈ image, Marker.spellsBytes reference.name = false) :
    Gives (.object (CatalogData.optionalField "image" ImageRef.toJson image)) ofJson?
      ⟨image, Dict.empty⟩ := by
  have empty : Gives (.object ([] ++ [])) ofJson? Record.empty := ⟨rfl, rfl⟩
  cases image with
  | none => exact empty
  | some reference =>
      have absent : ∀ field ∈ ([] ++ [] : List (String × Json)), field.1 ≠ "image" :=
        List.forall_mem_nil _
      have given := ImageRef.gives_toJson (plain reference rfl)
      exact takes_image.gives ignoresOrder_ofJson? absent given empty

theorem Spells.gives (document : Json) (record : Record) (spelled : Spells document record) :
    Gives document ofJson? record := by
  cases spelled with
  | @written image entries pairs plain spelled =>
      have bare := gives_bare plain
      have absent : ∀ field ∈ CatalogData.optionalField "image" ImageRef.toJson image ++ [],
          field.1 ≠ "entries" := by
        cases image <;> simp [CatalogData.optionalField]
      rw [← List.append_nil (CatalogData.optionalField _ _ _)] at bare
      have given := spelled.gives EntryValue.Spells.gives
      exact takes_entries.gives ignoresOrder_ofJson? absent given bare

end Record

namespace CatalogData

theorem ignoresOrder_ofJson? : Json.IgnoresOrder ofJson? :=
  Json.ignoresOrder_fields? _ _

theorem takes_records : Takes ofJson? "data" (Dict.ofJson? Record.ofJson?)
    fun records data => { data with records } := by
  refine @Json.takes_fields? CatalogData _ "data"
    [["protection"], ["configurations"], ["images"], ["tags"]] [] (by decide) _ _ _ ?_
  intro left right document data records leftLength rightLength read given
  match left, leftLength, right, rightLength with
  | [protection, configurations, images, tags], _, [], _ =>
    rcases Option.bind_eq_some_iff.mp read with ⟨⟨settings, configuration⟩, configured, rest⟩
    rcases Option.bind_eq_some_iff.mp rest with ⟨counter, counted, rest⟩
    rcases Option.bind_eq_some_iff.mp rest with ⟨pools, pooled, rest⟩
    rcases Option.bind_eq_some_iff.mp rest with ⟨pool, tagged, rest⟩
    cases rest
    refine Option.bind_eq_some_iff.mpr ⟨(settings, configuration), configured, ?_⟩
    refine Option.bind_eq_some_iff.mpr ⟨counter, counted, ?_⟩
    refine Option.bind_eq_some_iff.mpr ⟨pools, pooled, ?_⟩
    refine Option.bind_eq_some_iff.mpr ⟨pool, tagged, ?_⟩
    exact Option.bind_eq_some_iff.mpr ⟨records, given, rfl⟩

theorem takes_tags : Takes ofJson? "tags" TagPool.ofJson?
    fun pool data => { data with tags := some pool } := by
  refine @Json.takes_fields? CatalogData _ "tags"
    [["protection"], ["configurations"], ["images"]] [["data"]] (by decide) _ _ _ ?_
  intro left right document data pool leftLength rightLength read given
  match left, leftLength, right, rightLength with
  | [protection, configurations, images], _, [records], _ =>
    rcases Option.bind_eq_some_iff.mp read with ⟨⟨settings, configuration⟩, configured, rest⟩
    rcases Option.bind_eq_some_iff.mp rest with ⟨counter, counted, rest⟩
    rcases Option.bind_eq_some_iff.mp rest with ⟨pools, pooled, rest⟩
    rcases Option.bind_eq_some_iff.mp rest with ⟨_, _, rest⟩
    rcases Option.bind_eq_some_iff.mp rest with ⟨values, stored, rest⟩
    cases rest
    have absent : TagPool.ofJson? .null = none := rfl
    refine Option.bind_eq_some_iff.mpr ⟨(settings, configuration), configured, ?_⟩
    refine Option.bind_eq_some_iff.mpr ⟨counter, counted, ?_⟩
    refine Option.bind_eq_some_iff.mpr ⟨pools, pooled, ?_⟩
    refine Option.bind_eq_some_iff.mpr ⟨some pool, ?_, ?_⟩
    · exact (Json.orNull?_eq_some_iff absent).mpr given
    · exact Option.bind_eq_some_iff.mpr ⟨values, stored, rfl⟩

end CatalogData

namespace Codable

variable {α : Type} [Codable α]

/-- Every text of the document is decoded to the value, with its markers revived and without. -/
def Decodes (document : Json) (value : α) : Prop :=
  ∀ text, Json.read? text = some document →
    ofText text = .ok value ∧ ofPlainText? text = some value

/-- Wherever the document stands in a text, as a field of the name among others, it changes what is
decoded from the other fields in the given way, with the markers revived and without. -/
def Receives (name : String) (document : Json) (put : α → α) : Prop :=
  ∀ (before after : List (String × Json)) (bare whole : String),
    (∀ field ∈ before ++ after, field.1 ≠ name) →
      Json.read? bare = some (.object (before ++ after)) →
        Json.read? whole = some (.object (before ++ (name, document) :: after)) →
          ∀ value : α, (ofText bare = .ok value → ofText whole = .ok (put value)) ∧
            (ofPlainText? bare = some value → ofPlainText? whole = some (put value))

theorem ofText_eq_ok_iff_of_read? {text : String} {document : Json} {value : α}
    (read : Json.read? text = some document) :
    ofText text = .ok value ↔ Yields document decode? value :=
  ofText_eq_ok_iff (by rw [Json.parse?, read, Option.map_some])

theorem ofPlainText?_eq_of_read? {text : String} {document : Json}
    (read : Json.read? text = some document) :
    (ofPlainText? text : Option α) = decode? document := by
  rw [ofPlainText?, read, Option.bind_some]

theorem decodes_of_gives {document : Json} {value : α} (gives : Gives document decode? value) :
    Decodes document value := by
  intro text read
  rw [ofText_eq_ok_iff_of_read? read, ofPlainText?_eq_of_read? read]
  exact ⟨gives.revived, gives.plain⟩

theorem receives_of_takes {β : Type} {name : String} {document : Json} {item? : Json → Option β}
    {put : β → α → α} {item : β} (ignores : Json.IgnoresOrder (decode? : Json → Option α))
    (takes : Takes decode? name item? put) (gives : Gives document item? item) :
    Receives name document (put item) := by
  intro before after bare whole absent readBare readWhole value
  rw [ofText_eq_ok_iff_of_read? readBare, ofText_eq_ok_iff_of_read? readWhole,
    ofPlainText?_eq_of_read? readBare, ofPlainText?_eq_of_read? readWhole]
  exact ⟨takes.revived ignores absent gives.revived, takes.plain ignores absent gives.plain⟩

end Codable

theorem TagPool.gives_of_spells {document : Json} {pairs : List (String × List String)}
    (spelled : Dict.Spells SpellsTags document pairs) :
    Gives document ofJson? (ofEntries pairs) := by
  have given := spelled.gives SpellsTags.gives
  rcases Json.yields_iff.mp given.revived with ⟨settled, found, read⟩
  refine ⟨Json.yields_iff.mpr ⟨settled, found, ?_⟩, ?_⟩
  · rw [ofJson?, read, Option.map_some, ofEntries]
  · rw [ofJson?, given.plain, Option.map_some, ofEntries]

open Codable (Decodes Receives)

/-- However the map of a tag pool, of a record or of a catalog is spelled, as an object or as an
array headed by the map marker, and whether its markers are revived first or not, it is decoded to
the dictionary of its pairs, in which the last pair of a key counts. -/
theorem map_spellings_agree :
    (∀ (document : Json) (pairs : List (String × List String)),
      Dict.Spells TagPool.SpellsTags document pairs →
        Decodes document (TagPool.ofEntries pairs) ∧
        Receives "tags" document fun data : CatalogData =>
          { data with tags := some (TagPool.ofEntries pairs) }) ∧
    (∀ (document : Json) (pairs : List (String × EntryValue)),
      Dict.Spells EntryValue.Spells document pairs →
        Receives "entries" document fun record : Record =>
          { record with entries := Dict.ofList pairs }) ∧
    (∀ (document : Json) (pairs : List (String × Record)),
      Dict.Spells Record.Spells document pairs →
        Receives "data" document fun data : CatalogData =>
          { data with records := Dict.ofList pairs }) ∧
    ∀ (α : Type) (pairs : List (String × α)) (key : String),
      (Dict.ofList pairs).get? key = pairs.reverse.lookup key := by
  refine ⟨fun document pairs spelled => ⟨?_, ?_⟩, fun document pairs spelled => ?_,
    fun document pairs spelled => ?_, fun α pairs key => ?_⟩
  · exact Codable.decodes_of_gives (TagPool.gives_of_spells spelled)
  · exact Codable.receives_of_takes CatalogData.ignoresOrder_ofJson? CatalogData.takes_tags
      (TagPool.gives_of_spells spelled)
  · exact Codable.receives_of_takes Record.ignoresOrder_ofJson? Record.takes_entries
      (spelled.gives EntryValue.Spells.gives)
  · exact Codable.receives_of_takes CatalogData.ignoresOrder_ofJson? CatalogData.takes_records
      (spelled.gives Record.Spells.gives)
  · rw [Dict.get?_ofList, Dict.findField_eq_lookup]

/-! A catalog whose map of records is an object with a repeated id. The first record has its entries
in an object, the second in an array with a repeated name. -/

namespace Revisions

def title (text : String) : EntryValue := .string text

/-- Entries of which each is a title. -/
def fields (titles : List String) : List (String × Json) :=
  titles.map fun text => ("title", (title text).toJson)

def entries (titles : List String) : List (String × EntryValue) :=
  titles.map fun text => ("title", title text)

def records : Json :=
  .object [("a", .object [("entries", .object (fields ["old"]))]),
    ("a", .object [("entries", Json.ofFields (fields ["draft", "new"]))])]

def pairs : List (String × Record) :=
  [("a", ⟨none, Dict.ofList (entries ["old"])⟩),
    ("a", ⟨none, Dict.ofList (entries ["draft", "new"])⟩)]

/-- The catalog without its records. -/
def bare : List (String × Json) :=
  [("configurations", .object [("entry", .object [("entries", .array [])])])]

private theorem fieldsSpell {titles : List String}
    (plain : ∀ text ∈ titles, Marker.spellsBytes text = false) :
    Dict.FieldsSpell EntryValue.Spells (fields titles) (entries titles) := by
  refine List.forall₂_map_left_iff.mpr (List.forall₂_map_right_iff.mpr ?_)
  exact List.forall₂_same.mpr fun text member => ⟨rfl, rfl, plain text member⟩

theorem spells_records : Dict.Spells Record.Spells records pairs := by
  have old := fieldsSpell (show ∀ text ∈ ["old"], Marker.spellsBytes text = false by decide)
  have new := fieldsSpell
    (show ∀ text ∈ ["draft", "new"], Marker.spellsBytes text = false by decide)
  have plain : ∀ field ∈ fields ["draft", "new"], Marker.IsPlain field.1 := by decide
  exact .object (.cons ⟨rfl, @Record.Spells.written none _ _ (by simp) (.object old)⟩
    (.cons ⟨rfl, @Record.Spells.written none _ _ (by simp) (.marked new plain)⟩ .nil))

private theorem read?_bare :
    Json.read? (Json.object (bare ++ [])).render = some (.object (bare ++ [])) := by
  have integral : (Json.object (bare ++ [])).IsIntegral := by
    simp [bare, Json.isIntegral_object_iff, Json.isIntegral_array_iff]
  rw [Json.read?_render integral]
  rfl

private theorem read?_whole :
    Json.read? (Json.object (bare ++ ("data", records) :: [])).render =
      some (.object (bare ++ ("data", records) :: [])) := by
  have integral : (Json.object (bare ++ ("data", records) :: [])).IsIntegral := by
    simp [bare, records, fields, title, EntryValue.toJson, Json.ofFields,
      Json.isIntegral_object_iff, Json.isIntegral_array_iff, Json.IsIntegral.string]
  rw [Json.read?_render integral]
  rfl

/-- What is decoded without the records. -/
def catalog : CatalogData where
  writeCounter := 0
  settings := Json.emptyObject
  configuration := .ofEntries []
  images := none
  tags := none
  records := Dict.empty

/-- Only the last title of the last record is left. -/
theorem map_spellings_agree_revisions :
    (Dict.Spells Record.Spells records pairs ∧
      Codable.ofText (Json.object (bare ++ [])).render = .ok catalog) ∧
      Codable.ofText (Json.object (bare ++ ("data", records) :: [])).render =
        .ok (catalog.withRecord "a" ⟨none, Dict.ofList [("title", title "new")]⟩) ∧
      Codable.ofPlainText? (Json.object (bare ++ ("data", records) :: [])).render =
        some (catalog.withRecord "a" ⟨none, Dict.ofList [("title", title "new")]⟩) := by
  have revived : Codable.ofText (Json.object (bare ++ [])).render = .ok catalog :=
    (Codable.ofText_eq_ok_iff_of_read? read?_bare).mpr rfl
  have plain : Codable.ofPlainText? (Json.object (bare ++ [])).render = some catalog := by
    rw [Codable.ofPlainText?_eq_of_read? read?_bare]
    rfl
  have receives := map_spellings_agree.2.2.1 records pairs spells_records
  have same : { catalog with records := Dict.ofList pairs } =
      catalog.withRecord "a" ⟨none, Dict.ofList [("title", title "new")]⟩ := by
    have last : Dict.ofList pairs =
      Dict.empty.insert "a" ⟨none, Dict.ofList [("title", title "new")]⟩ := by decide
    rw [last]
    rfl
  have both := receives bare [] _ _ (by decide) read?_bare read?_whole catalog
  rw [← same]
  exact ⟨⟨spells_records, revived⟩, both.1 revived, both.2 plain⟩

end Revisions

end SealedCatalog
