import SealedCatalog.Catalog.Error
import SealedCatalog.Kdf.Cost

/-!
Envelopes: what a sealed catalog is at rest. The data are encrypted under a database key, and the
database key is encrypted under a key derived from the password.
-/

namespace SealedCatalog

structure Protection where
  /-- The database key, encrypted. -/
  encryptedKey : Bytes
  keyNonce : Nonce
  dataNonce : Nonce
  derivation : KdfParameters
deriving DecidableEq, Inhabited

structure Envelope where
  protection : Protection
  internals : Bytes
deriving DecidableEq, Inhabited

def Nonce.ofJson? (document : Json) : Option Nonce :=
  (Bytes.ofJson? document).bind Nonce.ofBytes?

namespace Protection

def toJson (protection : Protection) : Json :=
  .object [("encrypted_key", protection.encryptedKey.toJson),
    ("key_nonce", protection.keyNonce.bytes.toJson),
    ("data_nonce", protection.dataNonce.bytes.toJson),
    ("kdf_params", protection.derivation.toJson)]

/-- The parameters of the derivation may have an older name. -/
def ofJson? (document : Json) : Option Protection := do
  let [encryptedKey, keyNonce, dataNonce, derivation] ← document.fields?
    [["encrypted_key"], ["key_nonce"], ["data_nonce"], ["kdf_params", "argon2"]] | none
  some {
    encryptedKey := ← encryptedKey.bind Bytes.ofJson?
    keyNonce := ← keyNonce.bind Nonce.ofJson?
    dataNonce := ← dataNonce.bind Nonce.ofJson?
    derivation := ← derivation.bind KdfParameters.ofJson? }

end Protection

namespace Envelope

def toJson (envelope : Envelope) : Json :=
  .object [("protection", envelope.protection.toJson), ("internals", envelope.internals.toJson)]

def ofJson? (document : Json) : Option Envelope := do
  let [protection, internals] ← document.fields? [["protection"], ["internals"]] | none
  some ⟨← protection.bind Protection.ofJson?, ← internals.bind Bytes.ofJson?⟩

instance : Codable Envelope := ⟨toJson, ofJson?⟩

def parse (text : String) : Except CatalogError Envelope :=
  (Codable.ofText text).mapError .malformed

def parseBytes (data : Bytes) : Except CatalogError Envelope :=
  match data.toText? with
  | some text => parse text
  | none => .error .envelopeNotText

end Envelope

end SealedCatalog
