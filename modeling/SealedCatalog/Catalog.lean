import SealedCatalog.CatalogData
import SealedCatalog.Draft.Check
import SealedCatalog.Envelope
import SealedCatalog.Image.Sealed
import SealedCatalog.Record.Uniqueness
import SealedCatalog.SortKey.Order

/-!
Unlocked catalogs: the data and the keys to seal them again. Random bytes come from the caller, and
so does the worker that derives keys.
-/

namespace SealedCatalog

abbrev KdfWorker := KdfRequest → KdfOutcome

inductive Credential where
  | password (password : String)
  | rawKey (key : Bytes)
deriving DecidableEq, Repr

structure Fresh where
  databaseKey : CipherKey
  salt : Bytes
  keyNonce : Nonce
  dataNonce : Nonce

namespace Fresh

def length : Nat := keyLength + saltLength + nonceLength + nonceLength

def ofBytes? (random : Bytes) : Option Fresh := do
  let databaseKey ← (CipherKey.ofBytes (random.take keyLength) .both).toOption
  let afterKey := random.drop keyLength
  let afterSalt := afterKey.drop saltLength
  return {
    databaseKey
    salt := afterKey.take saltLength
    keyNonce := ← Nonce.ofBytes? (afterSalt.take nonceLength)
    dataNonce := ← Nonce.ofBytes? ((afterSalt.drop nonceLength).take nonceLength) }

end Fresh

/-- What becomes of a count that cannot grow: the program stops, or the count starts again. This is
decided when the program is built. -/
inductive Overflow where
  | stops
  | wraps
deriving DecidableEq, Repr

def greatestCount : UInt64 := 0xffffffffffffffff

/-- The count after one more, if there is any. -/
def Overflow.next? (count : UInt64) : Overflow → Option UInt64
  | stops => if count = greatestCount then none else some (count + 1)
  | wraps => some (count + 1)

structure Catalog where
  data : CatalogData
  databaseKey : CipherKey
  userKey : CipherKey
  protection : Protection
  /-- Whether the catalog can be asked for images. -/
  imageSupport : Bool

namespace Catalog

/-! Keys -/

def importKey (raw : Bytes) : Except CatalogError CipherKey :=
  (CipherKey.ofBytes raw .both).mapError .cipher

def deriveKey (worker : KdfWorker) (parameters : KdfParameters) (password : String) :
    Except CatalogError CipherKey := do
  let raw ← (worker (parameters.request (Bytes.ofText password))).mapError .derivation
  importKey raw

def userKeyOf (worker : KdfWorker) (parameters : KdfParameters) :
    Credential → Except CatalogError CipherKey
  | .password password => deriveKey worker parameters password
  | .rawKey raw => importKey raw

/-- The catalog that an envelope holds under the key of its user. Images may be offered with it; the
catalog has images only if its records have. -/
def unlock (envelope : Envelope) (userKey : CipherKey) (imagesOffered : Bool) :
    Except CatalogError Catalog := do
  let protection := envelope.protection
  let rawKey ← (userKey.decrypt protection.keyNonce protection.encryptedKey).mapError .cipher
  let databaseKey ← importKey rawKey
  let plain ← (databaseKey.decrypt protection.dataNonce envelope.internals).mapError .cipher
  let data : CatalogData ← (Codable.ofBytes plain).mapError .malformed
  return {
    data
    databaseKey
    userKey
    protection
    imageSupport := data.configuration.hasImages && imagesOffered }

def unwrap (envelope : Envelope) (credential : Credential) (imagesOffered : Bool)
    (worker : KdfWorker) : Except CatalogError Catalog := do
  let userKey ← userKeyOf worker envelope.protection.derivation credential
  unlock envelope userKey imagesOffered

/-- The key of a password and the protection that wraps the database key under it. The nonce of the
data is set when they are sealed. -/
def wrapKey (databaseKey : CipherKey) (password : String) (cost : KdfCost) (fresh : Fresh)
    (worker : KdfWorker) : Except CatalogError (CipherKey × Protection) := do
  let parameters := KdfParameters.ofCost cost fresh.salt
  let userKey ← deriveKey worker parameters password
  let encryptedKey ← (userKey.encrypt fresh.keyNonce databaseKey.bytes).mapError .cipher
  return (userKey, {
    encryptedKey
    keyNonce := fresh.keyNonce
    dataNonce := Nonce.zero
    derivation := parameters })

def create (data : CatalogData) (password : String) (cost : KdfCost) (imagesOffered : Bool)
    (fresh : Fresh) (worker : KdfWorker) : Except CatalogError Catalog := do
  let (userKey, protection) ← wrapKey fresh.databaseKey password cost fresh worker
  return {
    data
    databaseKey := fresh.databaseKey
    userKey
    protection
    imageSupport := data.configuration.hasImages && imagesOffered }

/-! Sealing -/

def countWrite? (overflow : Overflow) (data : CatalogData) : Option CatalogData :=
  (overflow.next? data.writeCounter).map fun writeCounter => { data with writeCounter }

/-- Seal the data under the keys of the catalog. The write is counted first, and stays counted if
the data cannot be encrypted. -/
def reseal (catalog : Catalog) (overflow : Overflow) (nonce : Nonce) :
    Catalog × Except SealFault Envelope :=
  match countWrite? overflow catalog.data with
  | none => (catalog, .error .stopped)
  | some data =>
      let counted := { catalog with data }
      match counted.databaseKey.encrypt nonce (Bytes.ofText (Codable.toText data)) with
      | .error reason => (counted, .error (.refused (.cipher reason)))
      | .ok internals =>
          let protection := { counted.protection with dataNonce := nonce }
          ({ counted with protection }, .ok ⟨protection, internals⟩)

/-- Wrap the database key under a new password and seal the data. The new key stays if they cannot
be sealed. -/
def changePassword (catalog : Catalog) (overflow : Overflow) (password : String) (cost : KdfCost)
    (fresh : Fresh) (worker : KdfWorker) : Catalog × Except SealFault Envelope :=
  match wrapKey catalog.databaseKey password cost fresh worker with
  | .error reason => (catalog, .error (.refused reason))
  | .ok (userKey, protection) =>
      { catalog with userKey, protection }.reseal overflow fresh.dataNonce

/-- The envelope of data that were not sealed before, and the database key. -/
def sealData (data : CatalogData) (overflow : Overflow) (password : String) (cost : KdfCost)
    (fresh : Fresh) (worker : KdfWorker) : Except SealFault (Envelope × CipherKey) := do
  let catalog ← (create data password cost false fresh worker).mapError .refused
  let (sealedCatalog, outcome) := catalog.reseal overflow fresh.dataNonce
  return (← outcome, sealedCatalog.databaseKey)

/-! Records -/

def store (catalog : Catalog) (id : String) (record : Record) (pool : TagPool) : Catalog :=
  { catalog with data := (catalog.data.withTags pool).withRecord id record }

def insertDraft (catalog : Catalog) (id : String) (draft : Draft) (imageSupplied : Bool) :
    Except (List RecordProblem) Catalog :=
  let configuration := catalog.data.configuration
  match draft.problems imageSupplied configuration with
  | [] =>
      let (record, pool) := draft.finalize configuration catalog.data.tagPool
      .ok (catalog.store id record pool)
  | problems => .error problems

/-- The catalog with a pool of tags, an empty one if it had none. -/
def withPool (catalog : Catalog) : Catalog :=
  { catalog with data := catalog.data.withTags catalog.data.tagPool }

/-- Store the record that a text describes. Even a text that is refused leaves the catalog with a
pool of tags. -/
def importRecord (catalog : Catalog) (id text : String) (imageSupplied : Bool) :
    Catalog × Except CatalogError Unit :=
  let data := catalog.data
  match SealedCatalog.importRecord data.configuration text data.tagPool imageSupplied with
  | .ok (record, pool) => (catalog.store id record pool, .ok ())
  | .error reason => (catalog.withPool, .error (.notImported reason))

/-- The problems of records, each by itself and then as it was told. What a record was told is used
up with it. -/
def diagnoseFields (configuration : Configuration) (told : Dict (List RecordProblem)) :
    List (String × Record) → List (String × List RecordProblem)
  | [] => []
  | (id, record) :: rest =>
      let reasons := record.problems configuration ++ told.listed id
      let later := diagnoseFields configuration (told.erase id) rest
      if reasons.isEmpty then later else (id, reasons) :: later

/-- The records with problems, in the order of their ids. -/
def diagnose (catalog : Catalog) : List (String × List RecordProblem) :=
  let configuration := catalog.data.configuration
  let records := catalog.data.records
  diagnoseFields configuration (records.duplicated configuration) records.toList

def sortedIds (catalog : Catalog) (entry : String) (descending : Bool) : Option (List String) :=
  (catalog.data.configuration.find? entry).map fun found =>
    catalog.data.records.sortedBy found catalog.data.tagPool descending

/-! Images -/

abbrev ImageLoader := String → Except CatalogError (Option Bytes)

def loadImage (catalog : Catalog) (loader : ImageLoader) (stem : String) (format : ImageFormat) :
    Except CatalogError Bytes :=
  if catalog.imageSupport then do
    let name := format.fileName stem
    match ← loader name with
    | none => throw (.imageMissing name)
    | some blob => format.openImage catalog.databaseKey blob
  else
    .error .noImageSupport

end Catalog

end SealedCatalog
