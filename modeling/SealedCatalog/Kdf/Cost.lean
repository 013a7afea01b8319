import SealedCatalog.Cipher
import SealedCatalog.Kdf
import SealedCatalog.Text.Blank
import SealedCatalog.Text.Digit

/-!
How costly a derivation is. A catalog is sealed with a cost, which the environment may set; the
parameters that an envelope keeps have the memory in bytes and a salt.
-/

namespace SealedCatalog

structure KdfCost where
  memoryKib : UInt32
  iterations : UInt32
  threads : UInt32
deriving DecidableEq, Inhabited, Repr

namespace KdfCost

def standard : KdfCost := ⟨65536, 3, 4⟩

def least : KdfCost := ⟨8, 1, 1⟩

/-- The number of 32 bits that a text spells, with blanks around it and perhaps a plus before it. -/
def parseSetting? (text : String) : Option UInt32 :=
  let trimmed := Text.trim text.toList
  let digits := match trimmed with
    | '+' :: rest => rest
    | other => other
  if !digits.isEmpty && digits.all Char.isDigit &&
      decide (Text.digitsValue digits < Nat.pow 2 32) then
    some (UInt32.ofNat (Text.digitsValue digits))
  else none

private def setting (environment : Dict String) (name : String) (otherwise : UInt32) : UInt32 :=
  ((environment.get? name).bind parseSetting?).getD otherwise

def memoryVariable : String := "KURA_KDF_MEMORY_KIB"

def iterationsVariable : String := "KURA_KDF_ITERATIONS"

def threadsVariable : String := "KURA_KDF_THREADS"

/-- The standard cost with what the environment sets. A setting that is no number is ignored. -/
def ofEnvironment (environment : Dict String) : KdfCost where
  memoryKib := setting environment memoryVariable standard.memoryKib
  iterations := setting environment iterationsVariable standard.iterations
  threads := setting environment threadsVariable standard.threads

def toJson (cost : KdfCost) : Json :=
  .object [("memory_kib", Json.ofUInt32 cost.memoryKib),
    ("iterations", Json.ofUInt32 cost.iterations), ("threads", Json.ofUInt32 cost.threads)]

def ofJson? (document : Json) : Option KdfCost := do
  let [memoryKib, iterations, threads] ←
    document.fields? [["memory_kib"], ["iterations"], ["threads"]] | none
  some {
    memoryKib := ← memoryKib.bind Json.uint32?
    iterations := ← iterations.bind Json.uint32?
    threads := ← threads.bind Json.uint32? }

instance : Codable KdfCost := ⟨toJson, ofJson?⟩

end KdfCost

def saltLength : Nat := 32

structure KdfParameters where
  /-- In bytes. -/
  memory : UInt64
  iterations : UInt32
  threads : UInt32
  salt : Bytes
deriving DecidableEq, Inhabited, Repr

namespace KdfParameters

def ofCost (cost : KdfCost) (salt : Bytes) : KdfParameters where
  memory := UInt64.ofNat (cost.memoryKib.toNat * 1024)
  iterations := cost.iterations
  threads := cost.threads
  salt := salt

/-- The memory in units of 1024 bytes, rounded down. What does not fit in 32 bits counts as the
greatest number of that size. -/
def memoryKib (parameters : KdfParameters) : UInt32 :=
  UInt32.ofNat (min (parameters.memory.toNat / 1024) (Nat.pow 2 32 - 1))

def request (parameters : KdfParameters) (password : Bytes) : KdfRequest where
  password := password
  salt := parameters.salt
  timeCost := parameters.iterations
  memoryKib := parameters.memoryKib
  parallelism := parameters.threads
  outputLength := UInt64.ofNat keyLength

def toJson (parameters : KdfParameters) : Json :=
  .object [("memory", Json.ofUInt64 parameters.memory),
    ("iterations", Json.ofUInt32 parameters.iterations),
    ("threads", Json.ofUInt32 parameters.threads), ("salt", parameters.salt.toJson)]

def ofJson? (document : Json) : Option KdfParameters := do
  let [memory, iterations, threads, salt] ←
    document.fields? [["memory"], ["iterations"], ["threads"], ["salt"]] | none
  some {
    memory := ← memory.bind Json.uint64?
    iterations := ← iterations.bind Json.uint32?
    threads := ← threads.bind Json.uint32?
    salt := ← salt.bind Bytes.ofJson? }

instance : Codable KdfParameters := ⟨toJson, ofJson?⟩

end KdfParameters

end SealedCatalog
