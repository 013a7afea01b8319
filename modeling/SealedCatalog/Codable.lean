import SealedCatalog.Json.Reader
import SealedCatalog.Json.Shape
import SealedCatalog.Json.Writer
import SealedCatalog.Marker.Revival

/-!
Values with a text form in marked JSON. Decoding parses the text, revives its markers and then
takes the document apart; `ofPlainText?` leaves the markers to the types that know them.
-/

namespace SealedCatalog

class Codable (α : Type u) where
  encode : α → Json
  decode? : Json → Option α

namespace Codable

def toText [Codable α] (value : α) : String :=
  (encode value).render

/-- A value from a document whose markers are revived. -/
def ofRevived [Codable α] (document : Json) : Except DecodeError α :=
  match decode? document with
  | some value => .ok value
  | none => .error .unexpectedShape

def ofText [Codable α] (text : String) : Except DecodeError α := do
  match Json.parse? text with
  | none => .error .invalidJson
  | some document => ofRevived (← document.revive)

def ofBytes [Codable α] (data : Bytes) : Except DecodeError α :=
  match data.toText? with
  | none => .error .notText
  | some text => ofText text

/-- A value from text without the revival of markers. -/
def ofPlainText? [Codable α] (text : String) : Option α :=
  (Json.read? text).bind decode?

def ofPlainBytes? [Codable α] (data : Bytes) : Option α :=
  data.toText?.bind ofPlainText?

end Codable

namespace Bytes

/-- A byte string from either of its spellings. -/
def ofJson? : Json → Option Bytes
  | .string text => (Bytes.ofMarked text).toOption
  | document => document.listOf? Json.uint8?

def toJson (data : Bytes) : Json :=
  .string data.toMarked

end Bytes

namespace Dict

def pair? (value? : Json → Option α) : Json → Option (String × α)
  | .array [.string key, value] => (value? value).map (key, ·)
  | _ => none

def fieldValue? (value? : Json → Option α) (field : String × Json) :
    Option (String × α) :=
  (value? field.2).map (field.1, ·)

/-- A dictionary from an object or from an array headed by the map marker. -/
def ofJson? (value? : Json → Option α) : Json → Option (Dict α)
  | .object fields => (fields.mapM (fieldValue? value?)).map ofList
  | .array (.string head :: pairs) =>
      if head = Marker.map then (pairs.mapM (pair? value?)).map ofList else none
  | _ => none

/-- The array of the pairs, headed by the map marker. -/
def toJson (value : α → Json) (dict : Dict α) : Json :=
  .array (.string Marker.map ::
    dict.toList.map fun field => .array [.string field.1, value field.2])

end Dict

instance : Codable Json where
  encode document := document
  decode? document := some document.canonical

end SealedCatalog
