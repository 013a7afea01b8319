import SealedCatalog.Cipher.Aes
import SealedCatalog.Cipher.Gcm

/-!
Authenticated encryption with AES-256 in Galois/Counter Mode, and keys that are bound to the
directions they may be used in.
-/

namespace SealedCatalog

def keyLength : Nat := 32

def nonceLength : Nat := 12

structure Nonce where
  bytes : Bytes
  length_bytes : bytes.length = nonceLength
deriving DecidableEq

namespace Nonce

def ofBytes? (raw : Bytes) : Option Nonce :=
  if length : raw.length = nonceLength then some ⟨raw, length⟩ else none

def zero : Nonce := ⟨List.replicate nonceLength 0, List.length_replicate⟩

instance : Inhabited Nonce := ⟨zero⟩

end Nonce

inductive CipherError where
  | keyOfLength (length : Nat)
  | notForEncryption
  | notForDecryption
  /-- The tag does not fit: the key is wrong or the data were changed. -/
  | unauthentic
deriving DecidableEq, Repr

def CipherError.message : CipherError → String
  | keyOfLength length => s!"Invalid key: expected {keyLength} bytes, got {length}"
  | notForEncryption => "Key usage not permitted: key was not imported for encryption"
  | notForDecryption => "Key usage not permitted: key was not imported for decryption"
  | unauthentic => "Decryption failed: wrong password or corrupted data"

namespace Cipher

/-- Encrypt under raw key bytes. The tag stands at the end. -/
def encrypt (key : Bytes) (nonce : Nonce) (plain : Bytes) : Bytes :=
  Gcm.encrypt (Aes.encryptWith (Aes.roundKeys key)) nonce.bytes plain

def decrypt (key : Bytes) (nonce : Nonce) (sealed : Bytes) : Except CipherError Bytes :=
  match Gcm.decrypt? (Aes.encryptWith (Aes.roundKeys key)) nonce.bytes sealed with
  | some plain => .ok plain
  | none => .error .unauthentic

end Cipher

structure KeyUsage where
  encrypt : Bool
  decrypt : Bool
deriving DecidableEq, Inhabited, Repr

namespace KeyUsage

def encryption : KeyUsage := ⟨true, false⟩

def decryption : KeyUsage := ⟨false, true⟩

def both : KeyUsage := ⟨true, true⟩

end KeyUsage

structure CipherKey where
  bytes : Bytes
  usage : KeyUsage
  length_bytes : bytes.length = keyLength
deriving DecidableEq

namespace CipherKey

def ofBytes (raw : Bytes) (usage : KeyUsage) : Except CipherError CipherKey :=
  if length : raw.length = keyLength then .ok ⟨raw, usage, length⟩
  else .error (.keyOfLength raw.length)

def encrypt (key : CipherKey) (nonce : Nonce) (plain : Bytes) : Except CipherError Bytes :=
  if key.usage.encrypt then .ok (Cipher.encrypt key.bytes nonce plain)
  else .error .notForEncryption

def decrypt (key : CipherKey) (nonce : Nonce) (sealed : Bytes) : Except CipherError Bytes :=
  if key.usage.decrypt then Cipher.decrypt key.bytes nonce sealed
  else .error .notForDecryption

end CipherKey

end SealedCatalog
