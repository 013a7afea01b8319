import SealedCatalog.Cipher.Block

/-!
The block cipher AES with a key of 256 bits. Bytes are polynomials over two elements modulo
`x ^ 8 + x ^ 4 + x ^ 3 + x + 1`, and all tables come from their arithmetic.
-/

namespace SealedCatalog.Cipher.Aes

def double (byte : UInt8) : UInt8 :=
  if byte &&& 0x80 = 0 then byte <<< 1 else (byte <<< 1) ^^^ 0x1b

/-- The sum of `left * x ^ i` over the first bits `i` of the other factor. -/
def multiplyBits (left right : UInt8) : Nat → UInt8
  | 0 => 0
  | bits + 1 =>
      (if right &&& 1 = 0 then 0 else left) ^^^ multiplyBits (double left) (right >>> 1) bits

def multiply (left right : UInt8) : UInt8 :=
  multiplyBits left right 8

/-- The inverse of a byte, its power of exponent 254; zero stays. -/
def invert (byte : UInt8) : UInt8 :=
  let square := multiply byte byte
  let power3 := multiply square byte
  let power12 := multiply (multiply power3 power3) (multiply power3 power3)
  let power15 := multiply power12 power3
  let power30 := multiply power15 power15
  let power60 := multiply power30 power30
  let power120 := multiply power60 power60
  let power240 := multiply power120 power120
  multiply (multiply power240 power12) square

def rotateLeft (byte count : UInt8) : UInt8 :=
  (byte <<< count) ||| (byte >>> (8 - count))

def substitution (byte : UInt8) : UInt8 :=
  let inverse := invert byte
  inverse ^^^ rotateLeft inverse 1 ^^^ rotateLeft inverse 2 ^^^ rotateLeft inverse 3 ^^^
    rotateLeft inverse 4 ^^^ 0x63

def substitutions : Array UInt8 :=
  Array.ofFn fun byte : Fin 256 => substitution (UInt8.ofNat byte)

def substitute (byte : UInt8) : UInt8 :=
  substitutions.getD byte.toNat 0

/-- The diagonals of a block become its columns. -/
def shiftRows (block : Block) : Block :=
  let ⟨a, b, c, d⟩ := block
  ⟨⟨a.first, b.second, c.third, d.fourth⟩, ⟨b.first, c.second, d.third, a.fourth⟩,
    ⟨c.first, d.second, a.third, b.fourth⟩, ⟨d.first, a.second, b.third, c.fourth⟩⟩

def mixColumn (column : Column) : Column :=
  let ⟨a, b, c, d⟩ := column
  let sum := a ^^^ b ^^^ c ^^^ d
  ⟨a ^^^ sum ^^^ double (a ^^^ b), b ^^^ sum ^^^ double (b ^^^ c), c ^^^ sum ^^^ double (c ^^^ d),
    d ^^^ sum ^^^ double (d ^^^ a)⟩

/-- A key from an earlier one: each column is added to the one before it. -/
def chain (start : Column) (key : Block) : Block :=
  let first := key.first.xor start
  let second := key.second.xor first
  let third := key.third.xor second
  ⟨first, second, third, key.fourth.xor third⟩

/-- The keys of the rounds, from two that follow each other and the constants that are left. -/
def extend (even odd : Block) : List UInt8 → List Block
  | [] => [even]
  | constant :: rest =>
      let start := (odd.fourth.rotate.map substitute).xor ⟨constant, 0, 0, 0⟩
      let nextEven := chain start even
      let nextOdd := chain (nextEven.fourth.map substitute) odd
      even :: odd :: extend nextEven nextOdd rest

def roundKeys (key : Bytes) : List Block :=
  extend (Block.ofBytes key) (Block.ofBytes (key.drop Block.size)) [1, 2, 4, 8, 16, 32, 64]

/-- The rounds with the given keys. The last one does not mix the columns. -/
def rounds (block : Block) : List Block → Block
  | [] => block
  | key :: rest =>
      let shifted := shiftRows (block.map fun column => column.map substitute)
      if rest.isEmpty then shifted.xor key
      else rounds ((shifted.map mixColumn).xor key) rest

def encryptWith (keys : List Block) (block : Block) : Block :=
  match keys with
  | [] => block
  | first :: rest => rounds (block.xor first) rest

def encrypt (key : Bytes) (block : Block) : Block :=
  encryptWith (roundKeys key) block

end SealedCatalog.Cipher.Aes
