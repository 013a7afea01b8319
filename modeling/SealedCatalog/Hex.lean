import SealedCatalog.Bytes

/-!
Byte strings in hexadecimal: two lower-case digits for each byte.
-/

namespace SealedCatalog.Bytes

def hexDigit? (char : Char) : Option Nat :=
  if char.isDigit then some (char.toNat - 48)
  else if 'a' ≤ char ∧ char ≤ 'f' then some (char.toNat - 87)
  else none

def ofHexDigits? : List Char → Option Bytes
  | [] => some []
  | [_] => none
  | high :: low :: rest => do
      return UInt8.ofNat (16 * (← hexDigit? high) + (← hexDigit? low)) :: (← ofHexDigits? rest)

def ofHex? (text : String) : Option Bytes :=
  ofHexDigits? text.toList

def hexDigits (byte : UInt8) : List Char :=
  [Nat.digitChar (byte.toNat / 16), Nat.digitChar (byte.toNat % 16)]

def toHex (data : Bytes) : String :=
  String.ofList (data.flatMap hexDigits)

end SealedCatalog.Bytes
