import SealedCatalog.Bytes

/-!
Blocks of sixteen bytes, as four columns of four.
-/

namespace SealedCatalog.Cipher

structure Column where
  first : UInt8
  second : UInt8
  third : UInt8
  fourth : UInt8
deriving DecidableEq, Inhabited, Repr

namespace Column

def map (transform : UInt8 → UInt8) (column : Column) : Column :=
  ⟨transform column.first, transform column.second, transform column.third,
    transform column.fourth⟩

def xor (left right : Column) : Column :=
  ⟨left.first ^^^ right.first, left.second ^^^ right.second, left.third ^^^ right.third,
    left.fourth ^^^ right.fourth⟩

def rotate (column : Column) : Column :=
  ⟨column.second, column.third, column.fourth, column.first⟩

def toBytes (column : Column) : Bytes :=
  [column.first, column.second, column.third, column.fourth]

/-- The column at a place of a byte string, filled up with zeros. -/
def ofBytes (data : Bytes) (offset : Nat) : Column :=
  ⟨data.getD offset 0, data.getD (offset + 1) 0, data.getD (offset + 2) 0,
    data.getD (offset + 3) 0⟩

end Column

structure Block where
  first : Column
  second : Column
  third : Column
  fourth : Column
deriving DecidableEq, Inhabited, Repr

namespace Block

def size : Nat := 16

def map (transform : Column → Column) (block : Block) : Block :=
  ⟨transform block.first, transform block.second, transform block.third,
    transform block.fourth⟩

def xor (left right : Block) : Block :=
  ⟨left.first.xor right.first, left.second.xor right.second, left.third.xor right.third,
    left.fourth.xor right.fourth⟩

def toBytes (block : Block) : Bytes :=
  block.first.toBytes ++ block.second.toBytes ++ block.third.toBytes ++ block.fourth.toBytes

def ofBytes (data : Bytes) : Block :=
  ⟨Column.ofBytes data 0, Column.ofBytes data 4, Column.ofBytes data 8, Column.ofBytes data 12⟩

@[simp] theorem length_toBytes (block : Block) : block.toBytes.length = size := rfl

end Block

end SealedCatalog.Cipher
