import SealedCatalog.Codable
import SealedCatalog.Kdf.Argon2

/-!
Derivation of keys from passwords: requests, what they derive, and why they may derive nothing.
-/

namespace SealedCatalog

inductive KdfError where
  | cancelled
  | invalidParameters (reason : String)
  | failed (code : Int32) (reason : String)
deriving DecidableEq, Inhabited, Repr

namespace KdfError

/-- The code of failures that have none of their own. -/
def failureCode : Int32 := -1

def cancellationCode : Int32 := -1000

def code : KdfError → Int32
  | cancelled => cancellationCode
  | invalidParameters _ => failureCode
  | failed code _ => code

def message : KdfError → String
  | cancelled => "Key derivation cancelled"
  | invalidParameters reason => "Invalid key derivation parameters: " ++ reason
  | failed code reason => s!"Key derivation failed ({code.toInt}): {reason}"

def ofWorker (reason : String) : KdfError :=
  failed failureCode reason

def vanished : KdfError :=
  ofWorker "key derivation worker stopped unexpectedly"

end KdfError

abbrev KdfOutcome := Except KdfError Bytes

structure KdfRequest where
  password : Bytes
  salt : Bytes
  timeCost : UInt32
  memoryKib : UInt32
  parallelism : UInt32
  outputLength : UInt64
deriving DecidableEq, Inhabited, Repr

namespace KdfRequest

def toJson (request : KdfRequest) : Json :=
  .object [("password", request.password.toJson), ("salt", request.salt.toJson),
    ("time_cost", Json.ofUInt32 request.timeCost), ("memory_kib", Json.ofUInt32 request.memoryKib),
    ("parallelism", Json.ofUInt32 request.parallelism),
    ("output_length", Json.ofUInt64 request.outputLength)]

def ofJson? (document : Json) : Option KdfRequest := do
  let [password, salt, timeCost, memoryKib, parallelism, outputLength] ← document.fields?
    [["password"], ["salt"], ["time_cost"], ["memory_kib"], ["parallelism"], ["output_length"]]
    | none
  some {
    password := ← password.bind Bytes.ofJson?
    salt := ← salt.bind Bytes.ofJson?
    timeCost := ← timeCost.bind Json.uint32?
    memoryKib := ← memoryKib.bind Json.uint32?
    parallelism := ← parallelism.bind Json.uint32?
    outputLength := ← outputLength.bind Json.uint64? }

instance : Codable KdfRequest := ⟨toJson, ofJson?⟩

inductive Defect where
  | memory
  | time
  | tooFewThreads
  | tooManyThreads
  | shortOutput
  | longOutput
  | longPassword
  | shortSalt
  | longSalt
deriving DecidableEq, Repr

namespace Defect

def reason : Defect → String
  | memory => "memory cost is too small"
  | time => "time cost is too small"
  | tooFewThreads => "not enough threads"
  | tooManyThreads => "too many threads"
  | shortOutput => "output is too short"
  | longOutput => "output is too long"
  | longPassword => "password is too long"
  | shortSalt => "salt is too short"
  | longSalt => "salt is too long"

end Defect

/-- The greatest length of passwords, salts and keys in bytes. -/
def greatestLength : Nat := 0xffffffff

/-- The first defect of a request. The costs and the length of the key are looked at before the
password and the salt. -/
def defect? (request : KdfRequest) : Option Defect :=
  let memory := request.memoryKib.toNat
  let threads := request.parallelism.toNat
  let output := request.outputLength.toNat
  if memory < 8 || memory < 8 * threads then some .memory
  else if request.timeCost = 0 then some .time
  else if threads < 1 then some .tooFewThreads
  else if 0xffffff < threads then some .tooManyThreads
  else if output < 4 then some .shortOutput
  else if greatestLength < output then some .longOutput
  else if greatestLength < request.password.length then some .longPassword
  else if request.salt.length < 8 then some .shortSalt
  else if greatestLength < request.salt.length then some .longSalt
  else none

def parameters (request : KdfRequest) : Kdf.Argon2.Parameters where
  memory := request.memoryKib.toNat
  passes := request.timeCost.toNat
  lanes := request.parallelism.toNat
  outputLength := request.outputLength.toNat

def derive (request : KdfRequest) : KdfOutcome :=
  match request.defect? with
  | some defect => .error (.invalidParameters defect.reason)
  | none => .ok (Kdf.Argon2.derive request.parameters request.password request.salt)

end KdfRequest

end SealedCatalog
