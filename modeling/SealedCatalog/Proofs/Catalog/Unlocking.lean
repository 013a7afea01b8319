import SealedCatalog.Proofs.Catalog.KeyChain

/-! Unlocking with a password and unlocking with the key that it derives. The password is used for
nothing but the derivation, so that a key that was kept opens what the password opens and fails
where the password fails. -/

namespace SealedCatalog.Catalog

open Session (offering zeros)

/-- The links of the chain from the key of a user to the data, each of which holds. -/
structure Unlocks (envelope : Envelope) (userKey : CipherKey) (imagesOffered : Bool)
    (catalog : Catalog) : Prop where
  keyKept : catalog.userKey = userKey
  protectionKept : catalog.protection = envelope.protection
  unwrapped : userKey.decrypt envelope.protection.keyNonce envelope.protection.encryptedKey =
    .ok catalog.databaseKey.bytes
  databaseUsage : catalog.databaseKey.usage = .both
  decrypted : ∃ plain,
    catalog.databaseKey.decrypt envelope.protection.dataNonce envelope.internals = .ok plain ∧
      Codable.ofBytes plain = .ok catalog.data
  images : catalog.imageSupport = (catalog.data.configuration.hasImages && imagesOffered)

theorem unlock_eq_ok_iff {envelope : Envelope} {userKey : CipherKey} {imagesOffered : Bool}
    {catalog : Catalog} :
    unlock envelope userKey imagesOffered = .ok catalog ↔
      Unlocks envelope userKey imagesOffered catalog := by
  simp only [unlock, Outcome.bind_eq_ok_iff, Outcome.mapError_eq_ok_iff, importKey_eq_ok_iff,
    Outcome.pure_eq_ok_iff]
  constructor
  · rintro ⟨_, unwrapped, databaseKey, ⟨rfl, both⟩, plain, decrypted, data, read, rfl⟩
    exact ⟨rfl, rfl, unwrapped, both, ⟨plain, decrypted, read⟩, rfl⟩
  · intro unlocks
    rcases unlocks.decrypted with ⟨plain, decrypted, read⟩
    refine ⟨_, unlocks.unwrapped, catalog.databaseKey, ⟨rfl, unlocks.databaseUsage⟩, plain,
      decrypted, catalog.data, read, ?_⟩
    rw [← unlocks.images, ← unlocks.keyKept, ← unlocks.protectionKept]

/-- What images are offered decides about nothing but the support of images. -/
theorem Unlocks.offering {envelope : Envelope} {userKey : CipherKey} {imagesOffered : Bool}
    {catalog : Catalog} (unlocks : Unlocks envelope userKey imagesOffered catalog)
    (offered : Bool) : Unlocks envelope userKey offered (offering catalog offered) where
  keyKept := unlocks.keyKept
  protectionKept := unlocks.protectionKept
  unwrapped := unlocks.unwrapped
  databaseUsage := unlocks.databaseUsage
  decrypted := unlocks.decrypted
  images := rfl

theorem unwrap_rawKey {raw : Bytes} {userKey : CipherKey} (imported : importKey raw = .ok userKey)
    (envelope : Envelope) (imagesOffered : Bool) (worker : KdfWorker) :
    unwrap envelope (.rawKey raw) imagesOffered worker =
      unlock envelope userKey imagesOffered := by
  rw [unwrap, userKeyOf, imported]
  rfl

section

variable {envelope : Envelope} {password : String} {imagesOffered : Bool} {worker : KdfWorker}

theorem unwrap_of_derived {key : Bytes}
    (derived : worker (envelope.protection.derivation.request (Bytes.ofText password)) = .ok key)
    (other : KdfWorker) :
    unwrap envelope (.password password) imagesOffered worker =
      unwrap envelope (.rawKey key) imagesOffered other := by
  rw [unwrap, userKeyOf, deriveKey, derived]
  rfl

theorem unwrap_of_not_derived {reason : KdfError}
    (failed : worker (envelope.protection.derivation.request (Bytes.ofText password)) =
      .error reason) :
    unwrap envelope (.password password) imagesOffered worker = .error (.derivation reason) := by
  rw [unwrap, userKeyOf, deriveKey, failed]
  rfl

/-- The key of a catalog that a password opened opens it again. -/
theorem unwrap_userKey {catalog : Catalog}
    (opened : unwrap envelope (.password password) imagesOffered worker = .ok catalog)
    (offered : Bool) (other : KdfWorker) :
    unwrap envelope (.rawKey catalog.userKey.bytes) offered other =
      .ok (offering catalog offered) := by
  rw [unwrap, userKeyOf] at opened
  rcases Outcome.bind_eq_ok_iff.mp opened with ⟨userKey, derived, unlocked⟩
  have unlocks := unlock_eq_ok_iff.mp unlocked
  have imported : importKey catalog.userKey.bytes = .ok userKey := by
    rw [unlocks.keyKept]
    exact importKey_eq_ok_iff.mpr ⟨rfl, (deriveKey_eq_ok_iff.mp derived).2⟩
  rw [unwrap_rawKey imported]
  apply unlock_eq_ok_iff.mpr
  exact unlocks.offering offered

end

/-- A password does what the key that it derives does, be that to open the envelope or to fail by
one of the links, and a password that derives no key fails by that alone. The key of a catalog that
was opened by a password opens the same catalog. -/
theorem unwrap_password_agrees (envelope : Envelope) (password : String) (imagesOffered : Bool)
    (worker other : KdfWorker) :
    let derived := worker (envelope.protection.derivation.request (Bytes.ofText password))
    let opened := unwrap envelope (.password password) imagesOffered worker
    (∀ key, derived = .ok key → opened = unwrap envelope (.rawKey key) imagesOffered other) ∧
      (∀ reason, derived = .error reason → opened = .error (.derivation reason)) ∧
      ∀ catalog, opened = .ok catalog → ∀ offered,
        unwrap envelope (.rawKey catalog.userKey.bytes) offered other =
          .ok (offering catalog offered) := by
  refine ⟨?_, ?_, ?_⟩
  · intro key derived
    exact unwrap_of_derived derived other
  · intro reason failed
    exact unwrap_of_not_derived failed
  · intro catalog opened offered
    exact unwrap_userKey opened offered other

/-! Data that are sealed under keys of zeros -/

/-- The envelope that holds the data. The key of the user is that of the database. -/
def sealing (data : CatalogData) : Envelope where
  protection := wrapping zeros.databaseKey zeros.databaseKey .least zeros
  internals := Cipher.encrypt zeros.databaseKey.bytes Nonce.zero
    (Bytes.ofText (Codable.toText data))

/-- What it holds. -/
def unsealed (data : CatalogData) : Catalog where
  data
  databaseKey := zeros.databaseKey
  userKey := zeros.databaseKey
  protection := (sealing data).protection
  imageSupport := false

theorem unlocks_sealing {data : CatalogData}
    (readable : Codable.ofText (Codable.toText data) = .ok data) :
    Unlocks (sealing data) zeros.databaseKey false (unsealed data) where
  keyKept := rfl
  protectionKept := rfl
  unwrapped := CipherKey.decrypt_of_both rfl _ _
  databaseUsage := rfl
  decrypted := ⟨_, CipherKey.decrypt_of_both rfl _ _, (Codable.ofBytes_ofText _).trans readable⟩
  images := (Bool.and_false _).symm

/-- A worker that derives zeros from whatever password opens it. -/
theorem unwrap_sealing {data : CatalogData}
    (readable : Codable.ofText (Codable.toText data) = .ok data) (password : String) :
    unwrap (sealing data) (.password password) false (fun _ => .ok zeros.databaseKey.bytes) =
      .ok (unsealed data) := by
  have imported : importKey zeros.databaseKey.bytes = .ok zeros.databaseKey :=
    importKey_eq_ok_iff.mpr ⟨rfl, rfl⟩
  rw [unwrap_of_derived rfl fun _ => .error .cancelled, unwrap_rawKey imported]
  exact unlock_eq_ok_iff.mpr (unlocks_sealing readable)

/-- The data of a catalog of titles that has no records and was written as often as given. -/
def written (writes : UInt64) : CatalogData :=
  { CatalogData.new (.ofEntries [.string "title" .unset]) with writeCounter := writes }

theorem unwrap_written (writes : UInt64) :
    unwrap (sealing (written writes)) (.password "pw") false
        (fun _ => .ok zeros.databaseKey.bytes) =
      .ok (unsealed (written writes)) := by
  have plain : ∀ text ∈ (written writes).texts, Marker.IsPlain text := by
    show ∀ text ∈ (written 0).texts, Marker.IsPlain text
    decide
  have shallow : (written writes).settings.depth + 2 ≤ Json.maxDepth := by
    show (written 0).settings.depth + 2 ≤ Json.maxDepth
    decide
  have integral : (written writes).settings.IsIntegral := .object (List.forall_mem_nil _)
  have fit : (written writes).IndicesFit := List.forall_mem_nil _
  have canonical : (written writes).settings.IsCanonical := .object .nil (List.forall_mem_nil _)
  have revivable := CatalogData.isRevivable_of_texts canonical fit plain
  exact unwrap_sealing
    ((CatalogData.ofText_toText_iff_isRevivable fit integral).mpr ⟨revivable, shallow⟩) "pw"

/-- The password opens the catalog, and so does its key when nothing can be derived any more. A key
that is too short is refused either way. -/
theorem unwrap_password_agrees_titles :
    let envelope := sealing (written 0)
    let catalog := unsealed (written 0)
    let derives : KdfWorker := fun _ => .ok zeros.databaseKey.bytes
    let falls : KdfWorker := fun _ => .ok [0]
    let refuses : KdfWorker := fun _ => .error .cancelled
    unwrap envelope (.password "pw") false derives = .ok catalog ∧
      unwrap envelope (.rawKey catalog.userKey.bytes) true refuses = .ok catalog ∧
      unwrap envelope (.password "pw") false falls = .error (.cipher (.keyOfLength 1)) := by
  intro envelope catalog derives falls refuses
  have ⟨_, _, again⟩ := unwrap_password_agrees envelope "pw" false derives refuses
  have ⟨short, _, _⟩ := unwrap_password_agrees envelope "pw" false falls refuses
  have opened : unwrap envelope (.password "pw") false derives = .ok catalog :=
    unwrap_written 0
  exact ⟨opened, again catalog opened true, short [0] rfl⟩

end SealedCatalog.Catalog
