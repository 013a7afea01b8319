import SealedCatalog.Json.Value

/-!
Taking documents apart. A structure is written as an object, whose unknown fields are ignored, or
as the array of its fields in order; a field may be given once.
-/

namespace SealedCatalog.Json

def string? : Json → Option String
  | string text => some text
  | _ => none

def bool? : Json → Option Bool
  | bool value => some value
  | _ => none

def nat? (limit : Nat) : Json → Option Nat
  | int (.ofNat value) => if value < limit then some value else none
  | _ => none

def uint8? (document : Json) : Option UInt8 :=
  (document.nat? (Nat.pow 2 8)).map UInt8.ofNat

def uint32? (document : Json) : Option UInt32 :=
  (document.nat? (Nat.pow 2 32)).map UInt32.ofNat

def uint64? (document : Json) : Option UInt64 :=
  (document.nat? (Nat.pow 2 64)).map UInt64.ofNat

def int32? : Json → Option Int32
  | int value =>
      if -(Nat.pow 2 31) ≤ value && value < Nat.pow 2 31 then some (Int32.ofInt value) else none
  | _ => none

def ofUInt32 (value : UInt32) : Json :=
  int value.toNat

def ofUInt64 (value : UInt64) : Json :=
  int value.toNat

def listOf? (item? : Json → Option α) : Json → Option (List α)
  | array items => items.mapM item?
  | _ => none

def orNull? (value? : Json → Option α) : Json → Option (Option α)
  | null => some none
  | document => (value? document).map some

/-- A field that may be left out: then it has the given value. -/
def orElse? (otherwise : α) (value? : Json → Option α) : Option Json → Option α
  | none => some otherwise
  | some document => value? document

/-- The value of the one field with one of the names; nothing when there is no such field, and a
failure when there are several. -/
def field? (names : List String) (fields : List (String × Json)) : Option (Option Json) :=
  match fields.filter (fun field => names.contains field.1) with
  | [] => some none
  | [field] => some (some field.2)
  | _ => none

def fields? (names : List (List String)) : Json → Option (List (Option Json))
  | object fields => names.mapM fun spellings => field? spellings fields
  | array items =>
      if items.length ≤ names.length then
        some (items.map some ++ List.replicate (names.length - items.length) none)
      else none
  | _ => none

end SealedCatalog.Json
