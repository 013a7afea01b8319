import SealedCatalog.Json.Value
import SealedCatalog.Number.Shortest

/-!
Compact JSON text: no blanks, fields in the order of the document, and only the quote, the
backslash and control characters escaped.
-/

namespace SealedCatalog.Json

def hexDigit (value : Nat) : Char :=
  if value < 10 then Char.ofNat (48 + value) else Char.ofNat (87 + value)

def writeChar (char : Char) : List Char :=
  if char = '"' then ['\\', '"']
  else if char = '\\' then ['\\', '\\']
  else if char = '\x08' then ['\\', 'b']
  else if char = '\x0c' then ['\\', 'f']
  else if char = '\n' then ['\\', 'n']
  else if char = '\r' then ['\\', 'r']
  else if char = '\t' then ['\\', 't']
  else if char.toNat < 32 then
    ['\\', 'u', '0', '0', hexDigit (char.toNat / 16), hexDigit (char.toNat % 16)]
  else [char]

def writeString (text : String) : List Char :=
  '"' :: (text.toList.flatMap writeChar ++ ['"'])

def writeInt (value : Int) : List Char :=
  match value with
  | .ofNat magnitude => Nat.toDigits 10 magnitude
  | .negSucc predecessor => '-' :: Nat.toDigits 10 (predecessor + 1)

mutual

def write : Json → List Char
  | null => "null".toList
  | bool true => "true".toList
  | bool false => "false".toList
  | int value => writeInt value
  | float value => value.write .plain
  | string value => writeString value
  | array items => '[' :: (writeItems items ++ [']'])
  | object fields => '{' :: (writeFields fields ++ ['}'])

def writeItems : List Json → List Char
  | [] => []
  | item :: rest => write item ++ writeMoreItems rest

def writeMoreItems : List Json → List Char
  | [] => []
  | item :: rest => ',' :: (write item ++ writeMoreItems rest)

def writeFields : List (String × Json) → List Char
  | [] => []
  | (key, value) :: rest => writeString key ++ ':' :: (write value ++ writeMoreFields rest)

def writeMoreFields : List (String × Json) → List Char
  | [] => []
  | (key, value) :: rest =>
      ',' :: (writeString key ++ ':' :: (write value ++ writeMoreFields rest))

end

def render (document : Json) : String :=
  String.ofList document.write

end SealedCatalog.Json
