import SealedCatalog.Codable

/-!
Images: the formats they are stored in, and the pools they are kept in.
-/

namespace SealedCatalog

/-- A stored format. The header stays readable in a sealed image. -/
structure ImageFormat where
  mime : String
  /-- With the dot. -/
  extension : String
  headerLength : Nat
deriving DecidableEq, Inhabited, Repr

namespace ImageFormat

def webp : ImageFormat := ⟨"image/webp", ".webp", 12⟩

def png : ImageFormat := ⟨"image/png", ".png", 33⟩

def full : ImageFormat := webp

def thumbnail : ImageFormat := png

def fileName (format : ImageFormat) (stem : String) : String :=
  stem ++ format.extension

end ImageFormat

structure ImagePool where
  name : String
  bitmap : Bytes
deriving DecidableEq, Inhabited, Repr

namespace ImagePool

def isAllocated (pool : ImagePool) (index : Nat) : Bool :=
  match pool.bitmap[index / 8]? with
  | none => false
  | some byte => byte.toNat.testBit (index % 8)

def toJson (pool : ImagePool) : Json :=
  .object [("name", .string pool.name), ("bitmap", pool.bitmap.toJson)]

def ofJson? (document : Json) : Option ImagePool := do
  let [name, bitmap] ← document.fields? [["name"], ["bitmap"]] | none
  some ⟨← name.bind Json.string?, ← bitmap.bind Bytes.ofJson?⟩

end ImagePool

structure ImagePools where
  pools : List ImagePool
deriving DecidableEq, Inhabited, Repr

namespace ImagePools

def empty : ImagePools := ⟨[]⟩

def toJson (images : ImagePools) : Json :=
  .object [("pools", .array (images.pools.map ImagePool.toJson))]

def ofJson? (document : Json) : Option ImagePools := do
  let [pools] ← document.fields? [["pools"]] | none
  some ⟨← pools.bind (Json.listOf? ImagePool.ofJson?)⟩

instance : Codable ImagePools := ⟨toJson, ofJson?⟩

end ImagePools

end SealedCatalog
