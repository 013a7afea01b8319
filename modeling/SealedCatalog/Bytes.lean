/-!
Byte strings.
-/

namespace SealedCatalog

abbrev Bytes := List UInt8

namespace Bytes

/-- The UTF-8 bytes of a text. -/
def ofText (text : String) : Bytes :=
  text.toUTF8.toList

def toText? (bytes : Bytes) : Option String :=
  String.fromUTF8? (ByteArray.mk bytes.toArray)

/-- A number in the given count of bytes, the highest byte first. -/
def bigEndian (count value : Nat) : Bytes :=
  (List.range count).map fun position => UInt8.ofNat (value / Nat.pow 256 (count - 1 - position))

def ofBigEndian (data : Bytes) : Nat :=
  data.foldl (fun value byte => 256 * value + byte.toNat) 0

def littleEndian (count value : Nat) : Bytes :=
  (List.range count).map fun position => UInt8.ofNat (value / Nat.pow 256 position)

def ofLittleEndian (data : Bytes) : Nat :=
  data.foldr (fun byte value => 256 * value + byte.toNat) 0

/-- As many pieces of the given size as asked for, of which the last ones may be shorter. -/
def chunks (size : Nat) : Nat → Bytes → List Bytes
  | 0, _ => []
  | count + 1, data => data.take size :: chunks size count (data.drop size)

/-- Two byte strings combined place by place by exclusive or, as long as the shorter one. -/
def xor (left right : Bytes) : Bytes :=
  List.zipWith (· ^^^ ·) left right

end Bytes

end SealedCatalog
