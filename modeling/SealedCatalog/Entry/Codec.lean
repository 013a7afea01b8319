import SealedCatalog.Entry

/-!
The marked JSON of a schema. An entry is one flat object in which the field of the type says what
further fields there are.
-/

namespace SealedCatalog

namespace SortingMethod

/-- A method is written by its name, and read also from an object with the name and null. -/
def ofJson? : Json → Option SortingMethod
  | .string text => ofName? text
  | .object [(text, .null)] => ofName? text
  | _ => none

end SortingMethod

/-- A type is written by its name, and read also from its place among the types. -/
def EntryType.ofJson? : Json → Option EntryType
  | .string text => ofName? text
  | .int (.ofNat position) => all[position]?
  | _ => none

namespace EntryKind

def fields : EntryKind → List (String × Json)
  | string unique => [("unique", .bool unique)]
  | tag exclusive => [("exclusive", .bool exclusive)]
  | rating maximumScore hints =>
      [("maximum_score", Json.ofUInt32 maximumScore),
        ("hints", match hints with
          | none => .null
          | some labels => .array (labels.map .string))]

def hints? (document : Json) : Option (Option (List String)) :=
  document.orNull? fun labels => labels.listOf? Json.string?

def ofFields? (fields : List (String × Json)) : Option EntryKind := do
  let entryType ← (← Json.field? ["type"] fields).bind EntryType.ofJson?
  match entryType with
  | .string => some (string (← (← Json.field? ["unique"] fields).bind Json.bool?))
  | .tag => some (tag (← (← Json.field? ["exclusive"] fields).bind Json.bool?))
  | .rating =>
      some (rating (← (← Json.field? ["maximum_score"] fields).bind Json.uint32?)
        (← Json.orElse? none hints? (← Json.field? ["hints"] fields)))

end EntryKind

namespace Entry

def toJson (entry : Entry) : Json :=
  .object (("name", .string entry.name) ::
    ("sorting_method", .string entry.sortingMethod.name) ::
    ("optional", .bool entry.optional) ::
    ("type", .string entry.entryType.name) :: entry.kind.fields)

def ofJson? : Json → Option Entry
  | .object fields => do
      let name ← (← Json.field? ["name"] fields).bind Json.string?
      let sortingMethod ← (← Json.field? ["sorting_method"] fields).bind SortingMethod.ofJson?
      let optional ← (← Json.field? ["optional"] fields).bind Json.bool?
      some ⟨name, sortingMethod, optional, ← EntryKind.ofFields? fields⟩
  | _ => none

instance : Codable Entry := ⟨toJson, ofJson?⟩

end Entry

namespace ImageSize

def toJson (size : ImageSize) : Json :=
  .object [("width", Json.ofUInt32 size.width), ("height", Json.ofUInt32 size.height)]

def ofJson? (document : Json) : Option ImageSize := do
  let [width, height] ← document.fields? [["width"], ["height"]] | none
  some ⟨← width.bind Json.uint32?, ← height.bind Json.uint32?⟩

end ImageSize

namespace Configuration

def toJson (configuration : Configuration) : Json :=
  let entries := ("entries", Json.array (configuration.entries.map Entry.toJson))
  match configuration.imageSize with
  | none => .object [entries]
  | some size => .object [("image_size", size.toJson), entries]

def ofJson? (document : Json) : Option Configuration := do
  let [imageSize, entries] ← document.fields? [["image_size"], ["entries"]] | none
  some ⟨← Json.orElse? none (Json.orNull? ImageSize.ofJson?) imageSize,
    ← entries.bind (Json.listOf? Entry.ofJson?)⟩

instance : Codable Configuration := ⟨toJson, ofJson?⟩

end Configuration

end SealedCatalog
