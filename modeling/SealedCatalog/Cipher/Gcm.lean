import SealedCatalog.Cipher.Block

/-!
Galois/Counter Mode for a block cipher, with nonces of twelve bytes and tags of sixteen. Data are
masked with a keystream, the encryptions of a counter, and the tag is a polynomial hash of the
masked data. Main statement: masking twice gives the data back.
-/

namespace SealedCatalog.Cipher.Gcm

abbrev BlockCipher := Block → Block

/-! Masking -/

def counterBlock (nonce : Bytes) (counter : Nat) : Block :=
  Block.ofBytes (nonce ++ Bytes.bigEndian 4 counter)

/-- The encryptions of as many counters as asked for, from the given one on. -/
def keystream (cipher : BlockCipher) (nonce : Bytes) (counter : Nat) : Nat → Bytes
  | 0 => []
  | blocks + 1 =>
      (cipher (counterBlock nonce counter)).toBytes ++
        keystream cipher nonce (counter + 1) blocks

/-- The number of blocks that data fill, the last perhaps in part. -/
def blockCount (length : Nat) : Nat :=
  (length + (Block.size - 1)) / Block.size

/-- Data combined with the keystream, which begins at counter two. -/
def mask (cipher : BlockCipher) (nonce data : Bytes) : Bytes :=
  Bytes.xor data (keystream cipher nonce 2 (blockCount data.length))

/-! Authentication: bits are polynomials over two elements, the highest bit the constant term -/

/-- The polynomial `1 + x + x ^ 2 + x ^ 7`, which stands for `x ^ 128`. -/
def reduction : BitVec 128 := 0xe1 <<< 120

def timesX (element : BitVec 128) : BitVec 128 :=
  if element.getLsbD 0 then (element >>> 1) ^^^ reduction else element >>> 1

/-- The sum of `right * x ^ i` over the bits of the left factor from a place on. -/
def multiplyFrom (left right : BitVec 128) (place : Nat) : Nat → BitVec 128
  | 0 => 0
  | places + 1 =>
      (if left.getMsbD place then right else 0) ^^^
        multiplyFrom left (timesX right) (place + 1) places

def multiply (left right : BitVec 128) : BitVec 128 :=
  multiplyFrom left right 0 128

def toBits (data : Bytes) : BitVec 128 :=
  BitVec.ofNat 128 (Bytes.ofBigEndian (Block.ofBytes data).toBytes)

def elements (data : Bytes) : List (BitVec 128) :=
  (Bytes.chunks Block.size (blockCount data.length) data).map toBits

/-- The polynomial hash of data and of their length in bits. -/
def hash (key : BitVec 128) (data : Bytes) : BitVec 128 :=
  (elements data ++ [BitVec.ofNat 128 (8 * data.length)]).foldl
    (fun sum element => multiply (sum ^^^ element) key) 0

def tagLength : Nat := 16

/-- The tag of masked data: their hash, masked with the encryption of counter one. -/
def tag (cipher : BlockCipher) (nonce data : Bytes) : Bytes :=
  let key := toBits (cipher (Block.ofBytes [])).toBytes
  Bytes.xor (Bytes.bigEndian tagLength (hash key data).toNat)
    (cipher (counterBlock nonce 1)).toBytes

def encrypt (cipher : BlockCipher) (nonce plain : Bytes) : Bytes :=
  let masked := mask cipher nonce plain
  masked ++ tag cipher nonce masked

def decrypt? (cipher : BlockCipher) (nonce sealed : Bytes) : Option Bytes :=
  let masked := sealed.take (sealed.length - tagLength)
  let given := sealed.drop (sealed.length - tagLength)
  if given = tag cipher nonce masked then some (mask cipher nonce masked) else none

/-! Facts -/

theorem length_keystream (cipher : BlockCipher) (nonce : Bytes) (counter count : Nat) :
    (keystream cipher nonce counter count).length = Block.size * count := by
  induction count generalizing counter with
  | zero => rfl
  | succ count induction =>
      simp [keystream, induction, Nat.mul_succ, Nat.add_comm]

theorem le_blockCount (length : Nat) : length ≤ Block.size * blockCount length := by
  simp only [blockCount, Block.size]
  omega

@[simp] theorem length_mask (cipher : BlockCipher) (nonce data : Bytes) :
    (mask cipher nonce data).length = data.length := by
  have enough := le_blockCount data.length
  simp only [mask, Bytes.xor, List.length_zipWith, length_keystream]
  omega

@[simp] theorem length_tag (cipher : BlockCipher) (nonce data : Bytes) :
    (tag cipher nonce data).length = tagLength := by
  simp [tag, Bytes.xor, Bytes.bigEndian, tagLength, Block.size]

theorem xor_xor_cancel (data stream : Bytes) (enough : data.length ≤ stream.length) :
    Bytes.xor (Bytes.xor data stream) stream = data := by
  induction data generalizing stream with
  | nil => simp [Bytes.xor]
  | cons byte data induction =>
      cases stream with
      | nil => simp at enough
      | cons streamed stream =>
          have rest := induction stream (by simpa using enough)
          simp only [Bytes.xor, List.zipWith_cons_cons] at rest ⊢
          rw [rest, UInt8.xor_assoc, UInt8.xor_self, UInt8.xor_zero]

theorem mask_mask (cipher : BlockCipher) (nonce data : Bytes) :
    mask cipher nonce (mask cipher nonce data) = data := by
  have enough := le_blockCount data.length
  unfold mask
  have same : (Bytes.xor data (keystream cipher nonce 2 (blockCount data.length))).length =
      data.length := length_mask cipher nonce data
  rw [same]
  exact xor_xor_cancel data _ (by rw [length_keystream]; exact enough)

end SealedCatalog.Cipher.Gcm
