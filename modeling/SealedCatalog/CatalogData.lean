import SealedCatalog.Entry.Codec
import SealedCatalog.Image
import SealedCatalog.Record.Codec
import SealedCatalog.TagPool

/-!
What a catalog holds, as it is sealed.
-/

namespace SealedCatalog

structure CatalogData where
  /-- How often the catalog has been sealed. -/
  writeCounter : UInt64
  /-- Settings of the application, which mean nothing here. -/
  settings : Json
  configuration : Configuration
  images : Option ImagePools
  tags : Option TagPool
  records : Records
deriving Inhabited

namespace CatalogData

def new (configuration : Configuration) : CatalogData where
  writeCounter := 0
  settings := Json.emptyObject
  configuration
  images := if configuration.hasImages then some ImagePools.empty else none
  tags := some TagPool.empty
  records := Dict.empty

/-- The tags, none when the catalog has no pool. -/
def tagPool (data : CatalogData) : TagPool :=
  data.tags.getD TagPool.empty

def withRecord (data : CatalogData) (id : String) (record : Record) : CatalogData :=
  { data with records := data.records.insert id record }

def withoutRecord (data : CatalogData) (id : String) : CatalogData :=
  { data with records := data.records.erase id }

def withTags (data : CatalogData) (pool : TagPool) : CatalogData :=
  { data with tags := some pool }

def optionalField (name : String) (encode : α → Json) : Option α → List (String × Json)
  | none => []
  | some value => [(name, encode value)]

def toJson (data : CatalogData) : Json :=
  .object ([("protection", .object [("encrypted_counter", Json.ofUInt64 data.writeCounter)]),
    ("configurations",
      .object [("global", data.settings), ("entry", data.configuration.toJson)])] ++
    optionalField "images" ImagePools.toJson data.images ++
    optionalField "tags" TagPool.toJson data.tags ++
    [("data", data.records.toJson Record.toJson)])

def counter? (document : Json) : Option UInt64 := do
  let [counter] ← document.fields? [["encrypted_counter"]] | none
  counter.bind Json.uint64?

def configurations? (document : Json) : Option (Json × Configuration) := do
  let [settings, configuration] ← document.fields? [["global"], ["entry"]] | none
  some ((settings.getD Json.emptyObject).canonical, ← configuration.bind Configuration.ofJson?)

def ofJson? (document : Json) : Option CatalogData := do
  let [protection, configurations, images, tags, records] ←
    document.fields? [["protection"], ["configurations"], ["images"], ["tags"], ["data"]] | none
  let (settings, configuration) ← configurations.bind configurations?
  some {
    writeCounter := ← Json.orElse? 0 counter? protection
    settings
    configuration
    images := ← Json.orElse? none (Json.orNull? ImagePools.ofJson?) images
    tags := ← Json.orElse? none (Json.orNull? TagPool.ofJson?) tags
    records := ← Json.orElse? Dict.empty (Dict.ofJson? Record.ofJson?) records }

instance : Codable CatalogData := ⟨toJson, ofJson?⟩

end CatalogData

end SealedCatalog
