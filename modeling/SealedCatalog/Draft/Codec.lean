import SealedCatalog.Draft
import SealedCatalog.Json.Shape
import SealedCatalog.Record.Codec

/-!
Drafts in JSON. The tags of a draft are indices or texts.
-/

namespace SealedCatalog

namespace DraftTag

def toJson : DraftTag → Json
  | pooled index => .int index
  | typed text => .string text

def ofJson? : Json → Option DraftTag
  | .string text => some (typed text)
  | document => (document.nat? (Nat.pow 2 64)).map pooled

end DraftTag

namespace DraftValue

def toJson : DraftValue → Json
  | string text => .object [("string", .string text)]
  | tags chosen => .object [("tags", .array (chosen.map DraftTag.toJson))]
  | rating score comment useComment =>
      .object [("score", Json.ofUInt32 score), ("comment", .string comment),
        ("use_comment", .bool useComment)]

def ofJson? : Json → Option DraftValue
  | .object fields =>
      match Dict.findField "string" fields, Dict.findField "tags" fields with
      | some text, _ => text.string?.map string
      | none, some chosen => (chosen.listOf? DraftTag.ofJson?).map tags
      | none, none => do
          return rating (← (← Dict.findField "score" fields).uint32?)
            (← (← Dict.findField "comment" fields).string?)
            (((Dict.findField "use_comment" fields).bind Json.bool?).getD false)
  | _ => none

end DraftValue

namespace Draft

def toJson (draft : Draft) : Json :=
  .object [("image", (draft.image.map ImageRef.toJson).getD .null),
    ("entries", .object (draft.entries.toList.map fun field => (field.1, field.2.toJson)))]

/-- The draft of a document in canonical form. -/
def ofJson? (document : Json) : Option Draft := do
  let .object fields := document | none
  let image ← match Dict.findField "image" fields with
    | none => some none
    | some .null => some none
    | some image => (ImageRef.ofJson? image).map some
  let .object values ← Dict.findField "entries" fields | none
  let entries ← values.mapM fun field => (DraftValue.ofJson? field.2).map (field.1, ·)
  return ⟨image, Dict.ofList entries⟩

end Draft

end SealedCatalog
