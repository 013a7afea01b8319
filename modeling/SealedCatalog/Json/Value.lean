import SealedCatalog.Dict
import SealedCatalog.Number.Binary64

/-!
JSON documents. An object is the list of its fields in the order they are written, so that a
document can be held as read, with repeated keys, and as it is to be written. `canonical` gives
the value such a document stands for: keys ascend and the last of repeated fields counts.
-/

namespace SealedCatalog

inductive Json where
  | null
  | bool (value : Bool)
  | int (value : Int)
  | float (value : Number.Binary64)
  | string (value : String)
  | array (items : List Json)
  | object (fields : List (String × Json))
deriving Inhabited, BEq

namespace Json

mutual

/-- The value a document stands for: in every object the keys ascend, and of fields with one key
only the last is kept. -/
def canonical : Json → Json
  | array items => array (canonicalItems items)
  | object fields => object (canonicalFields [] fields)
  | other => other

def canonicalItems : List Json → List Json
  | [] => []
  | item :: rest => canonical item :: canonicalItems rest

def canonicalFields (inserted : List (String × Json)) :
    List (String × Json) → List (String × Json)
  | [] => inserted
  | (key, value) :: rest => canonicalFields (Dict.insertField key (canonical value) inserted) rest

end

def emptyObject : Json :=
  object []

def isString : Json → Bool
  | string _ => true
  | _ => false

def isBool : Json → Bool
  | bool _ => true
  | _ => false

def isNumber : Json → Bool
  | int _ => true
  | float _ => true
  | _ => false

def typeName : Json → String
  | null => "null"
  | bool _ => "boolean"
  | int _ => "number"
  | float _ => "number"
  | string _ => "string"
  | array _ => "array"
  | object _ => "object"

/-- The least and the greatest integers that a number without point and exponent may denote; a
larger one is a binary number. -/
def leastInt : Int := -(Nat.pow 2 63)

def greatestInt : Int := Nat.pow 2 64 - 1

end Json

end SealedCatalog
