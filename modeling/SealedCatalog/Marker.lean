import SealedCatalog.Base64
import SealedCatalog.Json.Value
import SealedCatalog.Text.Occurrence

/-!
Plain JSON has neither byte strings nor maps, so two spellings stand for them: a string that begins
with the bytes marker carries bytes in base64, and an array headed by the map marker carries pairs
of a key and a value.
-/

namespace SealedCatalog

inductive DecodeError where
  | invalidJson
  | notText
  | missingMarker
  | invalidBase64
  /-- An element of a map array is no array. -/
  | pairExpected (position : Nat)
  | pairLength (position count : Nat)
  | keyExpected (position : Nat)
  | unexpectedShape
deriving DecidableEq, Repr

namespace Marker

/-- Begins a string that carries bytes. -/
def bytes : String := "base64://"

/-- Heads an array that carries a map. -/
def map : String := "map://"

end Marker

def DecodeError.message : DecodeError → String
  | invalidJson => "invalid JSON"
  | notText => "payload is not UTF-8"
  | missingMarker => "missing " ++ Marker.bytes ++ " prefix"
  | invalidBase64 => "invalid base64 payload"
  | pairExpected position => s!"map element {position} is not a [key, value] pair"
  | pairLength position count => s!"map element {position} has {count} items instead of 2"
  | keyExpected position => s!"map element {position} does not have a string key"
  | unexpectedShape => "unexpected shape"

namespace Bytes

def toMarked (data : Bytes) : String :=
  Marker.bytes ++ String.ofList (Base64.encode data)

/-- The rest of a list after the given start, if it has that start. -/
def afterStart? [BEq α] (start text : List α) : Option (List α) :=
  if start.isPrefixOf text then some (text.drop start.length) else none

def ofMarked (text : String) : Except DecodeError Bytes :=
  match afterStart? Marker.bytes.toList text.toList with
  | none => .error .missingMarker
  | some payload =>
      match Base64.decode? payload with
      | none => .error .invalidBase64
      | some data => .ok data

end Bytes

end SealedCatalog
