import SealedCatalog.Kdf.Blake2b

/-!
The password hash Argon2id, version 19. Memory is filled in passes of four slices; the lanes of a
slice do not depend on each other.
-/

namespace SealedCatalog.Kdf.Argon2

abbrev Words := Array UInt64

def wordsPerBlock : Nat := 128

def bytesPerBlock : Nat := 1024

/-- The sum of two words and of twice the product of their lower halves. -/
@[inline] def multiplySum (left right : UInt64) : UInt64 :=
  left + right + 2 * ((left &&& 0xffffffff) * (right &&& 0xffffffff))

@[inline] def permute (place : Nat → Nat) (words : Words) : Words :=
  Quartet.round (fun _ => Quartet.mix multiplySum 0 0) place words

def xor (left right : Words) : Words :=
  Array.zipWith (· ^^^ ·) left right

/-- The block that two blocks determine: their sum, permuted by rows and by columns, is added to
itself. -/
def compress (left right : Words) : Words :=
  let sum := xor left right
  let rows := (List.range 8).foldl (fun words row =>
    permute (fun place => 16 * row + place) words) sum
  let columns := (List.range 8).foldl (fun words column =>
    permute (fun place => 2 * column + 16 * (place / 2) + place % 2) words) rows
  xor columns sum

/-- The hashes of hashes that follow one, each but the last giving half of its bytes. -/
def stretch (length : Nat) (previous : Bytes) : Nat → Bytes
  | 0 => Blake2b.hash length previous
  | more + 1 =>
      let next := Blake2b.hash 64 previous
      next.take 32 ++ stretch (length - 32) next more

def hash (length : Nat) (data : Bytes) : Bytes :=
  let headed := Bytes.littleEndian 4 length ++ data
  if length ≤ 64 then Blake2b.hash length headed
  else
    let first := Blake2b.hash 64 headed
    first.take 32 ++ stretch (length - 32) first ((length + 31) / 32 - 3)

structure Parameters where
  memory : Nat
  passes : Nat
  lanes : Nat
  outputLength : Nat
deriving DecidableEq, Repr

namespace Parameters

def slices : Nat := 4

def segmentLength (parameters : Parameters) : Nat :=
  parameters.memory / (slices * parameters.lanes)

def laneLength (parameters : Parameters) : Nat :=
  slices * parameters.segmentLength

def blockCount (parameters : Parameters) : Nat :=
  parameters.lanes * parameters.laneLength

end Parameters

structure Segment where
  pass : Nat
  slice : Nat
  lane : Nat

namespace Segment

/-- Whether the references of a segment do not depend on the memory. -/
def isIndependent (segment : Segment) : Bool :=
  segment.pass == 0 && decide (segment.slice < 2)

def zeroBlock : Words := Array.replicate wordsPerBlock 0

/-- The random words for the references of an independent segment, a block of them. -/
def addresses (parameters : Parameters) (segment : Segment) (block : Nat) : Words :=
  let input := ([segment.pass, segment.lane, segment.slice, parameters.blockCount,
    parameters.passes, 2, block + 1].map Nat.toUInt64).toArray ++
      Array.replicate (wordsPerBlock - 7) 0
  compress zeroBlock (compress zeroBlock input)

def referenceLane (parameters : Parameters) (segment : Segment) (random : UInt64) : Nat :=
  if segment.pass = 0 && segment.slice = 0 then segment.lane
  else (random >>> 32).toNat % parameters.lanes

/-- How many blocks of a lane may be referred to: those that are filled, without the block before
the current one. -/
def referenceCount (parameters : Parameters) (segment : Segment) (index : Nat)
    (sameLane : Bool) : Nat :=
  let filled := if segment.pass = 0 then segment.slice * parameters.segmentLength
    else parameters.laneLength - parameters.segmentLength
  if sameLane then filled + index - 1
  else if index = 0 then filled - 1
  else filled

/-- The place of the block that a random word refers to. Near blocks are likelier. -/
def reference (parameters : Parameters) (segment : Segment) (index : Nat)
    (random : UInt64) : Nat :=
  let lane := referenceLane parameters segment random
  let count := referenceCount parameters segment index (lane == segment.lane)
  let low := (random &&& 0xffffffff).toNat
  let distance := count * (low * low / Nat.pow 2 32) / Nat.pow 2 32
  let start := if segment.pass = 0 || segment.slice = Parameters.slices - 1 then 0
    else (segment.slice + 1) * parameters.segmentLength
  lane * parameters.laneLength + (start + (count - 1 - distance)) % parameters.laneLength

/-- Fill the block at an index of a segment. In later passes it is added to what was there. -/
def fillBlock (parameters : Parameters) (segment : Segment) (addressed : Array Words)
    (memory : Array Words) (index : Nat) : Array Words :=
  let base := segment.lane * parameters.laneLength
  let column := segment.slice * parameters.segmentLength + index
  let previousColumn := if column = 0 then parameters.laneLength - 1 else column - 1
  let previous := memory.getD (base + previousColumn) #[]
  let random :=
    if segment.isIndependent then
      (addressed.getD (index / wordsPerBlock) #[]).getD (index % wordsPerBlock) 0
    else previous.getD 0 0
  let filled := compress previous
    (memory.getD (reference parameters segment index random) #[])
  let final := if segment.pass = 0 then filled
    else xor filled (memory.getD (base + column) #[])
  memory.setIfInBounds (base + column) final

/-- Fill a segment. The first two blocks of a lane are there from the start. -/
def fill (parameters : Parameters) (memory : Array Words) (segment : Segment) : Array Words :=
  let length := parameters.segmentLength
  let addressed :=
    if segment.isIndependent then
      (Array.range ((length + (wordsPerBlock - 1)) / wordsPerBlock)).map
        (addresses parameters segment)
    else #[]
  let start := if segment.pass = 0 && segment.slice = 0 then 2 else 0
  (List.range' start (length - start)).foldl (fillBlock parameters segment addressed) memory

def all (parameters : Parameters) : List Segment :=
  (List.range parameters.passes).flatMap fun pass =>
    (List.range Parameters.slices).flatMap fun slice =>
      (List.range parameters.lanes).map fun lane => ⟨pass, slice, lane⟩

end Segment

private def withLength (data : Bytes) : Bytes :=
  Bytes.littleEndian 4 data.length ++ data

def initialHash (parameters : Parameters) (password salt : Bytes) : Bytes :=
  let numbers := [parameters.lanes, parameters.outputLength, parameters.memory,
    parameters.passes, 0x13, 2]
  Blake2b.hash 64 (numbers.flatMap (Bytes.littleEndian 4) ++ withLength password ++
    withLength salt ++ withLength [] ++ withLength [])

/-- The block at a column, one of the first two, of a lane. -/
def firstBlock (start : Bytes) (lane column : Nat) : Words :=
  Blake2b.words wordsPerBlock
    (hash bytesPerBlock (start ++ Bytes.littleEndian 4 column ++ Bytes.littleEndian 4 lane))

def initialMemory (parameters : Parameters) (start : Bytes) : Array Words :=
  (List.range parameters.lanes).foldl (fun memory lane =>
    let base := lane * parameters.laneLength
    (memory.setIfInBounds base (firstBlock start lane 0)).setIfInBounds (base + 1)
      (firstBlock start lane 1)) (Array.replicate parameters.blockCount Segment.zeroBlock)

/-- The key of a password under a salt: the hash of the sum of the lanes' last blocks. -/
def derive (parameters : Parameters) (password salt : Bytes) : Bytes :=
  let memory := (Segment.all parameters).foldl (Segment.fill parameters)
    (initialMemory parameters (initialHash parameters password salt))
  let sum := (List.range parameters.lanes).foldl (fun sum lane =>
    xor sum (memory.getD ((lane + 1) * parameters.laneLength - 1) #[])) Segment.zeroBlock
  hash parameters.outputLength (Blake2b.ofWords sum)

end SealedCatalog.Kdf.Argon2
