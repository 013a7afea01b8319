import SealedCatalog.Bytes

/-!
The hash function BLAKE2b without key. Its mixing of four words takes the sum as a parameter, so
that other functions of the family can use it.
-/

namespace SealedCatalog.Kdf

structure Quartet where
  a : UInt64
  b : UInt64
  c : UInt64
  d : UInt64

namespace Quartet

def rotateRight (word count : UInt64) : UInt64 :=
  (word >>> count) ||| (word <<< (64 - count))

/-- One half of the mixing, with the amounts of its two rotations. -/
@[inline] def mixHalf (sum : UInt64 → UInt64 → UInt64) (message outer inner : UInt64)
    (quartet : Quartet) : Quartet :=
  let a := sum quartet.a quartet.b + message
  let d := rotateRight (quartet.d ^^^ a) outer
  let c := sum quartet.c d
  let b := rotateRight (quartet.b ^^^ c) inner
  ⟨a, b, c, d⟩

@[inline] def mix (sum : UInt64 → UInt64 → UInt64) (first second : UInt64)
    (quartet : Quartet) : Quartet :=
  mixHalf sum second 16 63 (mixHalf sum first 32 24 quartet)

@[inline] def update (transform : Quartet → Quartet) (words : Array UInt64)
    (a b c d : Nat) : Array UInt64 :=
  let changed := transform ⟨words.getD a 0, words.getD b 0, words.getD c 0, words.getD d 0⟩
  (((words.setIfInBounds a changed.a).setIfInBounds b changed.b).setIfInBounds c
    changed.c).setIfInBounds d changed.d

/-- The columns of a square of sixteen words, and then its diagonals. -/
def places : List (Nat × Nat × Nat × Nat) :=
  [(0, 4, 8, 12), (1, 5, 9, 13), (2, 6, 10, 14), (3, 7, 11, 15),
    (0, 5, 10, 15), (1, 6, 11, 12), (2, 7, 8, 13), (3, 4, 9, 14)]

@[inline] def round (mixAt : Nat → Quartet → Quartet) (place : Nat → Nat)
    (words : Array UInt64) : Array UInt64 :=
  places.zipIdx.foldl (fun words ((a, b, c, d), index) =>
    update (mixAt index) words (place a) (place b) (place c) (place d)) words

end Quartet

namespace Blake2b

def blockSize : Nat := 128

def initial : Array UInt64 :=
  #[0x6a09e667f3bcc908, 0xbb67ae8584caa73b, 0x3c6ef372fe94f82b, 0xa54ff53a5f1d36f1,
    0x510e527fade682d1, 0x9b05688c2b3e6c1f, 0x1f83d9abfb41bd6b, 0x5be0cd19137e2179]

def orders : List (Array Nat) :=
  [#[0, 1, 2, 3, 4, 5, 6, 7, 8, 9, 10, 11, 12, 13, 14, 15],
    #[14, 10, 4, 8, 9, 15, 13, 6, 1, 12, 0, 2, 11, 7, 5, 3],
    #[11, 8, 12, 0, 5, 2, 15, 13, 10, 14, 3, 6, 7, 1, 9, 4],
    #[7, 9, 3, 1, 13, 12, 11, 14, 2, 6, 5, 10, 4, 0, 15, 8],
    #[9, 0, 5, 7, 2, 4, 10, 15, 14, 1, 11, 12, 6, 8, 3, 13],
    #[2, 12, 6, 10, 0, 11, 8, 3, 4, 13, 7, 5, 15, 14, 1, 9],
    #[12, 5, 1, 15, 14, 13, 4, 10, 0, 7, 6, 3, 9, 2, 8, 11],
    #[13, 11, 7, 14, 12, 1, 3, 9, 5, 0, 15, 4, 8, 6, 2, 10],
    #[6, 15, 14, 9, 11, 3, 0, 8, 12, 2, 13, 7, 1, 4, 10, 5],
    #[10, 2, 8, 4, 7, 6, 1, 5, 15, 11, 9, 14, 3, 12, 13, 0],
    #[0, 1, 2, 3, 4, 5, 6, 7, 8, 9, 10, 11, 12, 13, 14, 15],
    #[14, 10, 4, 8, 9, 15, 13, 6, 1, 12, 0, 2, 11, 7, 5, 3]]

def words (count : Nat) (data : Bytes) : Array UInt64 :=
  ((Bytes.chunks 8 count data).map fun bytes => (Bytes.ofLittleEndian bytes).toUInt64).toArray

def ofWords (words : Array UInt64) : Bytes :=
  words.toList.flatMap fun word => Bytes.littleEndian 8 word.toNat

/-- Hash a block. `count` bytes have been hashed with it. -/
def compress (hash : Array UInt64) (block : Bytes) (count : Nat) (last : Bool) : Array UInt64 :=
  let message := words 16 block
  let counted := initial.modify 4 (· ^^^ count.toUInt64)
  let marked := if last then counted.modify 6 (· ^^^ 0xffffffffffffffff) else counted
  let mixed := orders.foldl (fun state order =>
    Quartet.round (fun index => Quartet.mix (· + ·)
      (message.getD (order.getD (2 * index) 0) 0) (message.getD (order.getD (2 * index + 1) 0) 0))
      id state) (hash ++ marked)
  Array.ofFn fun place : Fin 8 =>
    hash.getD place 0 ^^^ mixed.getD place 0 ^^^ mixed.getD (place + 8) 0

def absorb (hash : Array UInt64) (count length : Nat) : List Bytes → Array UInt64
  | [] => hash
  | [block] => compress hash block length true
  | block :: rest =>
      absorb (compress hash block (count + blockSize) false) (count + blockSize) length rest

/-- The hash of data, of at most sixty-four bytes. -/
def hash (length : Nat) (data : Bytes) : Bytes :=
  let start := initial.modify 0 (· ^^^ (0x01010000 + length).toUInt64)
  let blockCount := max 1 ((data.length + (blockSize - 1)) / blockSize)
  (ofWords (absorb start 0 data.length (Bytes.chunks blockSize blockCount data))).take length

end Blake2b

end SealedCatalog.Kdf
