import SealedCatalog.Codable
import SealedCatalog.Record

/-!
The marked JSON of records. The fields of a value say of which kind it is.
-/

namespace SealedCatalog

namespace ImageRef

def toJson (image : ImageRef) : Json :=
  .object [("name", .string image.name), ("index", Json.ofUInt32 image.index)]

def ofJson? (document : Json) : Option ImageRef := do
  let [name, index] ← document.fields? [["name"], ["index"]] | none
  some ⟨← name.bind Json.string?, ← index.bind Json.uint32?⟩

end ImageRef

namespace EntryValue

def toJson : EntryValue → Json
  | string text => .object [("value", .string text)]
  | tags indices => .object [("tags", .array (indices.map fun (index : Nat) => .int index))]
  | rating score none => .object [("score", Json.ofUInt32 score)]
  | rating score (some comment) =>
      .object [("score", Json.ofUInt32 score), ("comment", .string comment)]

def string? (fields : List (String × Json)) : Option EntryValue := do
  some (string (← (← Json.field? ["value"] fields).bind Json.string?))

def tags? (fields : List (String × Json)) : Option EntryValue := do
  some (tags (← (← Json.field? ["tags"] fields).bind (Json.listOf? (Json.nat? (Nat.pow 2 64)))))

def rating? (fields : List (String × Json)) : Option EntryValue := do
  some (rating (← (← Json.field? ["score"] fields).bind Json.uint32?)
    (← Json.orElse? none (Json.orNull? Json.string?) (← Json.field? ["comment"] fields)))

/-- The first kind of value that the fields fit. -/
def ofJson? : Json → Option EntryValue
  | .object fields => string? fields <|> tags? fields <|> rating? fields
  | _ => none

instance : Codable EntryValue := ⟨toJson, ofJson?⟩

end EntryValue

namespace Record

def toJson (record : Record) : Json :=
  let entries := ("entries", record.entries.toJson EntryValue.toJson)
  match record.image with
  | none => .object [entries]
  | some image => .object [("image", image.toJson), entries]

def ofJson? (document : Json) : Option Record := do
  let [image, entries] ← document.fields? [["image"], ["entries"]] | none
  some ⟨← Json.orElse? none (Json.orNull? ImageRef.ofJson?) image,
    ← Json.orElse? Dict.empty (Dict.ofJson? EntryValue.ofJson?) entries⟩

instance : Codable Record := ⟨toJson, ofJson?⟩

end Record

end SealedCatalog
