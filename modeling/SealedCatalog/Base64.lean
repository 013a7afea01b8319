import SealedCatalog.Bytes

/-!
Base64 with the standard alphabet. Padding is required, the bits that fill up the last character
are zero, and nothing else may stand in the text, so that every byte string has one text.
-/

namespace SealedCatalog.Base64

/-- The character of a six-bit value. -/
def encodeDigit (value : Nat) : Char :=
  if value < 26 then Char.ofNat (65 + value)
  else if value < 52 then Char.ofNat (71 + value)
  else if value < 62 then Char.ofNat (value - 4)
  else if value = 62 then '+'
  else '/'

def decodeDigit? (char : Char) : Option Nat :=
  let code := char.toNat
  if 65 ≤ code && code ≤ 90 then some (code - 65)
  else if 97 ≤ code && code ≤ 122 then some (code - 71)
  else if 48 ≤ code && code ≤ 57 then some (code + 4)
  else if char = '+' then some 62
  else if char = '/' then some 63
  else none

def encode : Bytes → List Char
  | [] => []
  | [a] =>
      [encodeDigit (a.toNat / 4), encodeDigit (a.toNat % 4 * 16), '=', '=']
  | [a, b] =>
      [encodeDigit (a.toNat / 4), encodeDigit (a.toNat % 4 * 16 + b.toNat / 16),
        encodeDigit (b.toNat % 16 * 4), '=']
  | a :: b :: c :: rest =>
      encodeDigit (a.toNat / 4) :: encodeDigit (a.toNat % 4 * 16 + b.toNat / 16) ::
        encodeDigit (b.toNat % 16 * 4 + c.toNat / 64) :: encodeDigit (c.toNat % 64) :: encode rest

def firstByte (p q : Nat) : UInt8 := UInt8.ofNat (p * 4 + q / 16)

def secondByte (q r : Nat) : UInt8 := UInt8.ofNat (q % 16 * 16 + r / 4)

def thirdByte (r s : Nat) : UInt8 := UInt8.ofNat (r % 4 * 64 + s)

/-- Four characters, the last of them padding or not, that end a text. -/
def decodeLast? (p q r s : Char) : Option Bytes := do
  let first ← decodeDigit? p
  let second ← decodeDigit? q
  if s = '=' then
    if r = '=' then
      if second % 16 = 0 then some [firstByte first second] else none
    else
      let third ← decodeDigit? r
      if third % 4 = 0 then some [firstByte first second, secondByte second third] else none
  else
    let third ← decodeDigit? r
    let fourth ← decodeDigit? s
    some [firstByte first second, secondByte second third, thirdByte third fourth]

def decode? : List Char → Option Bytes
  | [] => some []
  | [p, q, r, s] => decodeLast? p q r s
  | p :: q :: r :: s :: rest => do
      let first ← decodeDigit? p
      let second ← decodeDigit? q
      let third ← decodeDigit? r
      let fourth ← decodeDigit? s
      let bytes ← decode? rest
      some (firstByte first second :: secondByte second third :: thirdByte third fourth :: bytes)
  | _ => none

end SealedCatalog.Base64
