import SealedCatalog.Marker

/-!
Revival turns the two marker spellings of a document into plain JSON, from the inside out: a bytes
string becomes the array of its bytes, and a map array becomes an object in which the last of
repeated keys counts.
-/

namespace SealedCatalog.Json

def ofBytes (data : Bytes) : Json :=
  array (data.map fun byte => int byte.toNat)

/-- The fields that the pairs of a map array denote, inserted into ascending ones. -/
def fieldsOfPairs (position : Nat) (inserted : List (String × Json)) :
    List Json → Except DecodeError (List (String × Json))
  | [] => .ok inserted
  | array [key, value] :: rest =>
      match key with
      | string name => fieldsOfPairs (position + 1) (Dict.insertField name value inserted) rest
      | _ => .error (.keyExpected position)
  | array pair :: _ => .error (.pairLength position pair.length)
  | _ :: _ => .error (.pairExpected position)

/-- An array whose items are revived: a map if the marker heads it. -/
def ofRevivedItems : List Json → Except DecodeError Json
  | string head :: rest =>
      if head = Marker.map then
        (fieldsOfPairs 1 [] rest).map object
      else
        .ok (array (string head :: rest))
  | items => .ok (array items)

def reviveString (text : String) : Except DecodeError Json :=
  if Text.beginsWith text Marker.bytes then (Bytes.ofMarked text).map ofBytes
  else .ok (string text)

mutual

def revive : Json → Except DecodeError Json
  | string text => reviveString text
  | array items => do ofRevivedItems (← reviveItems items)
  | object fields => do return object (← reviveFields fields)
  | other => .ok other

def reviveItems : List Json → Except DecodeError (List Json)
  | [] => .ok []
  | item :: rest => do
      let revived ← revive item
      return revived :: (← reviveItems rest)

def reviveFields : List (String × Json) → Except DecodeError (List (String × Json))
  | [] => .ok []
  | (key, value) :: rest => do
      let revived ← revive value
      return (key, revived) :: (← reviveFields rest)

end

end SealedCatalog.Json
