import SealedCatalog.Envelope
import SealedCatalog.Proofs.Cipher
import SealedCatalog.Proofs.Codec.Text
import SealedCatalog.Proofs.Marker.Yielding

/-! Envelopes are always got back from their text, in whichever of its spellings each part is
written: a byte string as its marker string or as the list of its numbers, and the parameters of the
derivation under either of their names. -/

namespace SealedCatalog

open Json (Fits Yields)

/-! Spellings -/

/-- How a byte string is written. -/
inductive Bytes.Spelling where
  /-- As its marker string. -/
  | marked
  /-- As the list of its numbers. -/
  | listed
deriving DecidableEq

def Bytes.spell (data : Bytes) : Spelling → Json
  | .marked => data.toJson
  | .listed => .ofBytes data

/-- How the parts of an envelope are written that have several spellings. -/
structure Envelope.Spelling where
  encryptedKey : Bytes.Spelling
  keyNonce : Bytes.Spelling
  dataNonce : Bytes.Spelling
  salt : Bytes.Spelling
  internals : Bytes.Spelling
  /-- Whether the parameters of the derivation stand under their older name. -/
  olderName : Bool
deriving DecidableEq

/-- The spelling of the text that is given out for an envelope. -/
def Envelope.Spelling.standard : Spelling :=
  ⟨.marked, .marked, .marked, .marked, .marked, false⟩

def KdfParameters.spell (parameters : KdfParameters) (salt : Bytes.Spelling) : Json :=
  .object [("memory", Json.ofUInt64 parameters.memory),
    ("iterations", Json.ofUInt32 parameters.iterations),
    ("threads", Json.ofUInt32 parameters.threads), ("salt", parameters.salt.spell salt)]

def Protection.spell (protection : Protection) (spelling : Envelope.Spelling) : Json :=
  .object [("encrypted_key", protection.encryptedKey.spell spelling.encryptedKey),
    ("key_nonce", protection.keyNonce.bytes.spell spelling.keyNonce),
    ("data_nonce", protection.dataNonce.bytes.spell spelling.dataNonce),
    (if spelling.olderName then "argon2" else "kdf_params",
      protection.derivation.spell spelling.salt)]

def Envelope.spell (envelope : Envelope) (spelling : Spelling) : Json :=
  .object [("protection", envelope.protection.spell spelling),
    ("internals", envelope.internals.spell spelling.internals)]

theorem Envelope.spell_standard (envelope : Envelope) :
    envelope.spell .standard = Codable.encode envelope := rfl

/-! Reading -/

theorem Bytes.yields_spell (data : Bytes) (spelling : Spelling) :
    Yields (data.spell spelling) ofJson? data := by
  have settled : Json.settle (data.spell spelling) = some (.ofBytes data) := by
    cases spelling with
    | marked => exact Json.settle_bytes data
    | listed => exact Json.settle_ofBytes data
  apply Json.yields_iff.mpr
  exact ⟨.ofBytes data, settled, Json.ofJson?_ofBytes data⟩

theorem Nonce.yields_spell (nonce : Nonce) (spelling : Bytes.Spelling) :
    Yields (nonce.bytes.spell spelling) ofJson? nonce := by
  rcases Json.yields_iff.mp (nonce.bytes.yields_spell spelling) with ⟨settled, found, read⟩
  apply Json.yields_iff.mpr
  refine ⟨settled, found, ?_⟩
  rw [ofJson?, read, Option.bind_some, ofBytes?_bytes]

theorem KdfParameters.yields_spell (parameters : KdfParameters) (spelling : Bytes.Spelling) :
    Yields (parameters.spell spelling) ofJson? parameters := by
  have ignores : Json.IgnoresOrder ofJson? := Json.ignoresOrder_fields? _ _
  rcases Json.yields_iff.mp (Json.yields_uint64 parameters.memory) with
      ⟨memory, memorySettled, memoryRead⟩
  rcases Json.yields_iff.mp (Json.yields_uint32 parameters.iterations) with
      ⟨iterations, iterationsSettled, iterationsRead⟩
  rcases Json.yields_iff.mp (Json.yields_uint32 parameters.threads) with
      ⟨threads, threadsSettled, threadsRead⟩
  rcases Json.yields_iff.mp (parameters.salt.yields_spell spelling) with
      ⟨salt, saltSettled, saltRead⟩
  rw [spell, Json.yields_object_iff ignores (by simp)]
  simp only [Json.exists_settled_cons, Json.exists_settled_nil]
  refine ⟨memory, memorySettled, iterations, iterationsSettled, threads, threadsSettled, salt,
    saltSettled, ?_⟩
  simp [ofJson?, Json.fields?, Json.field?, memoryRead, iterationsRead, threadsRead, saltRead]

theorem Protection.yields_spell (protection : Protection) (spelling : Envelope.Spelling) :
    Yields (protection.spell spelling) ofJson? protection := by
  have ignores : Json.IgnoresOrder ofJson? := Json.ignoresOrder_fields? _ _
  rcases Json.yields_iff.mp (protection.encryptedKey.yields_spell spelling.encryptedKey) with
      ⟨key, keySettled, keyRead⟩
  rcases Json.yields_iff.mp (protection.keyNonce.yields_spell spelling.keyNonce) with
      ⟨keyNonce, keyNonceSettled, keyNonceRead⟩
  rcases Json.yields_iff.mp (protection.dataNonce.yields_spell spelling.dataNonce) with
      ⟨dataNonce, dataNonceSettled, dataNonceRead⟩
  rcases Json.yields_iff.mp (protection.derivation.yields_spell spelling.salt) with
      ⟨derivation, derivationSettled, derivationRead⟩
  rw [spell]
  cases spelling.olderName with
  | false | true =>
      rw [Json.yields_object_iff ignores (by simp)]
      simp only [Json.exists_settled_cons, Json.exists_settled_nil]
      refine ⟨key, keySettled, keyNonce, keyNonceSettled, dataNonce, dataNonceSettled, derivation,
        derivationSettled, ?_⟩
      simp [ofJson?, Json.fields?, Json.field?, keyRead, keyNonceRead, dataNonceRead,
        derivationRead]

namespace Envelope

theorem yields_spell (envelope : Envelope) (spelling : Spelling) :
    Yields (envelope.spell spelling) ofJson? envelope := by
  have ignores : Json.IgnoresOrder ofJson? := Json.ignoresOrder_fields? _ _
  rcases Json.yields_iff.mp (envelope.protection.yields_spell spelling) with
      ⟨protection, protectionSettled, protectionRead⟩
  rcases Json.yields_iff.mp (envelope.internals.yields_spell spelling.internals) with
      ⟨internals, internalsSettled, internalsRead⟩
  rw [spell, Json.yields_object_iff ignores (by simp)]
  simp only [Json.exists_settled_cons, Json.exists_settled_nil]
  refine ⟨protection, protectionSettled, internals, internalsSettled, ?_⟩
  simp [ofJson?, Json.fields?, Json.field?, protectionRead, internalsRead]

end Envelope

theorem Bytes.fits_spell (limit : Nat) (data : Bytes) (spelling : Spelling) :
    Fits (limit + 1) (data.spell spelling) := by
  cases spelling with
  | marked => exact Bytes.fits_toJson _ data
  | listed =>
      apply Json.fits_array_iff.mpr
      intro item member
      rcases List.mem_map.mp member with ⟨byte, _, rfl⟩
      apply Json.fits_nat_iff.mpr
      exact Nat.lt_trans byte.toNat_lt (by decide)

namespace Envelope

theorem fits_spell (envelope : Envelope) (spelling : Spelling) :
    Fits 4 (envelope.spell spelling) := by
  simp [spell, Protection.spell, KdfParameters.spell, Json.fits_object_iff, Bytes.fits_spell]

/-- Whatever text stands for a spelling of an envelope gives it back. -/
theorem parse_of_spell {envelope : Envelope} {spelling : Spelling} {text : String}
    (parsed : Json.parse? text = some (envelope.spell spelling).canonical) :
    parse text = .ok envelope := by
  have read : Codable.ofText text = .ok envelope :=
    (Codable.ofText_eq_ok_iff parsed).mpr (envelope.yields_spell spelling)
  rw [parse, read]
  rfl

theorem parse?_render_spell (envelope : Envelope) (spelling : Spelling) :
    Json.parse? (envelope.spell spelling).render = some (envelope.spell spelling).canonical := by
  have fits := envelope.fits_spell spelling
  have shallow : (envelope.spell spelling).depth ≤ Json.maxDepth :=
    Nat.le_trans fits.shallow (by decide)
  rw [Json.parse?_render fits.integral, if_pos shallow]

theorem parse_toText (envelope : Envelope) :
    parse (Codable.toText envelope) = .ok envelope := by
  rw [Codable.toText, ← spell_standard]
  exact parse_of_spell (envelope.parse?_render_spell .standard)

/-- Every spelling of an envelope gives it back. So does every text that stands for the same
document, and the text of an envelope that was read. -/
theorem parse_spelled (envelope : Envelope) :
    parse (Codable.toText envelope) = .ok envelope ∧
      (∀ spelling, parse (envelope.spell spelling).render = .ok envelope) ∧
      (∀ spelling text, Json.parse? text = some (envelope.spell spelling).canonical →
        parse text = .ok envelope) ∧
      ∀ text, parse text = .ok envelope → parse (Codable.toText envelope) = .ok envelope :=
  ⟨envelope.parse_toText, fun spelling => parse_of_spell (envelope.parse?_render_spell spelling),
    fun _ _ => parse_of_spell, fun _ _ => envelope.parse_toText⟩

end Envelope

end SealedCatalog
