import SealedCatalog.Image.Sealed
import SealedCatalog.Proofs.Cipher.Exactness
import SealedCatalog.Proofs.Outcome

/-! Sealed images are opened again, whatever the format and the size of the image, and no other blob
is opened. Neither direction parts a byte string beyond its end: sealing and opening with checked
places find every place in range. -/

namespace SealedCatalog

/-- A byte string parted at a place, nothing when the place lies beyond its end. -/
def Bytes.partAt? (place : Nat) (data : Bytes) : Option (Bytes × Bytes) :=
  if place ≤ data.length then some (data.take place, data.drop place) else none

theorem Bytes.partAt?_append {place : Nat} {left : Bytes} (length : left.length = place)
    (right : Bytes) : partAt? place (left ++ right) = some (left, right) := by
  subst length
  simp [partAt?]

namespace ImageFormat

/-- Opening with checked places: nothing when a byte string is parted beyond its end. -/
def openChecked? (format : ImageFormat) (key : CipherKey) (blob : Bytes) :
    Option (Except CatalogError Bytes) :=
  if blob.length < format.headerLength + nonceLength then
    some (.error (.blobTooShort format.mime blob.length))
  else do
    let (header, rest) ← blob.partAt? format.headerLength
    let (raw, sealed) ← rest.partAt? nonceLength
    let nonce ← Nonce.ofBytes? raw
    some (((key.decrypt nonce sealed).mapError .cipher).map (header ++ ·))

/-- Sealing with checked places. -/
def sealChecked? (format : ImageFormat) (key : CipherKey) (nonce : Nonce) (image : Bytes) :
    Option (Except CatalogError Bytes) :=
  if image.length < format.headerLength then
    some (.error (.imageTooShort format.mime format.headerLength))
  else do
    let (header, body) ← image.partAt? format.headerLength
    some (((key.encrypt nonce body).mapError .cipher).map (header ++ nonce.bytes ++ ·))

variable {format : ImageFormat} {key : CipherKey} {nonce : Nonce} {blob image : Bytes}

/-- A blob that is long enough has a header and a nonce. -/
private theorem exists_parts (long : format.headerLength + nonceLength ≤ blob.length) :
    ∃ (header : Bytes) (nonce : Nonce) (sealed : Bytes), header.length = format.headerLength ∧
      blob = header ++ (nonce.bytes ++ sealed) := by
  have raw : ((blob.drop format.headerLength).take nonceLength).length = nonceLength := by
    rw [List.length_take, List.length_drop]
    omega
  refine ⟨blob.take format.headerLength, ⟨_, raw⟩,
    (blob.drop format.headerLength).drop nonceLength, ?_, ?_⟩
  · rw [List.length_take]
    omega
  · rw [List.take_append_drop, List.take_append_drop]

section Parts

variable {header : Bytes} (length : header.length = format.headerLength) (sealed : Bytes)

include length

private theorem not_tooShort :
    ¬ (header ++ (nonce.bytes ++ sealed)).length < format.headerLength + nonceLength := by
  rw [List.length_append, List.length_append, nonce.length_bytes, length]
  omega

theorem openImage_parts : format.openImage key (header ++ (nonce.bytes ++ sealed)) =
    ((key.decrypt nonce sealed).mapError .cipher).map (header ++ ·) := by
  have taken : (header ++ (nonce.bytes ++ sealed)).take format.headerLength = header :=
    List.take_left' length
  have dropped : (header ++ (nonce.bytes ++ sealed)).drop format.headerLength =
      nonce.bytes ++ sealed := List.drop_left' length
  have raw : (nonce.bytes ++ sealed).take nonceLength = nonce.bytes :=
    List.take_left' nonce.length_bytes
  have rest : (nonce.bytes ++ sealed).drop nonceLength = sealed :=
    List.drop_left' nonce.length_bytes
  rw [openImage, if_neg (not_tooShort length sealed)]
  simp only [taken, dropped, raw, rest, Nonce.ofBytes?_bytes]
  cases key.decrypt nonce sealed <;> rfl

private theorem openChecked?_parts :
    format.openChecked? key (header ++ (nonce.bytes ++ sealed)) =
      some (((key.decrypt nonce sealed).mapError .cipher).map (header ++ ·)) := by
  rw [openChecked?, if_neg (not_tooShort length sealed), Bytes.partAt?_append length]
  simp [Bytes.partAt?_append nonce.length_bytes, Nonce.ofBytes?_bytes]

end Parts

/-- Opening never parts a blob beyond its end, and always finds a nonce. -/
theorem openChecked?_eq (format : ImageFormat) (key : CipherKey) (blob : Bytes) :
    format.openChecked? key blob = some (format.openImage key blob) := by
  by_cases short : blob.length < format.headerLength + nonceLength
  · rw [openChecked?, openImage, if_pos short, if_pos short]
  · rcases exists_parts (Nat.not_lt.mp short) with ⟨header, nonce, sealed, length, rfl⟩
    rw [openChecked?_parts length, openImage_parts length]

/-- Sealing never parts an image beyond its end. -/
theorem sealChecked?_eq (format : ImageFormat) (key : CipherKey) (nonce : Nonce) (image : Bytes) :
    format.sealChecked? key nonce image = some (format.sealImage key nonce image) := by
  unfold sealChecked? sealImage
  split
  · rfl
  next long =>
    rw [Bytes.partAt?, if_pos (Nat.not_lt.mp long)]
    simp only [Option.bind_eq_bind, Option.bind_some, Option.some.injEq]
    cases key.encrypt nonce (image.drop format.headerLength) <;> rfl

/-- The blob of an image: its header in clear, a nonce, and the rest sealed under it. -/
def blobOf (format : ImageFormat) (key : CipherKey) (nonce : Nonce) (image : Bytes) : Bytes :=
  image.take format.headerLength ++
    (nonce.bytes ++ Cipher.encrypt key.bytes nonce (image.drop format.headerLength))

theorem length_blobOf (whole : format.headerLength ≤ image.length) :
    (format.blobOf key nonce image).length = image.length + 28 := by
  have overhead : nonceLength + Cipher.Gcm.tagLength = 28 := rfl
  rw [blobOf, List.length_append, List.length_append, List.length_take, nonce.length_bytes,
    Cipher.length_encrypt, List.length_drop]
  omega

theorem sealImage_eq_ok_iff : format.sealImage key nonce image = .ok blob ↔
    format.headerLength ≤ image.length ∧ key.usage.encrypt = true ∧
      blob = format.blobOf key nonce image := by
  rw [sealImage]
  by_cases short : image.length < format.headerLength
  · simp [short, Nat.not_le.mpr short]
  · rw [if_neg short, Outcome.bind_eq_ok_iff]
    simp only [Outcome.mapError_eq_ok_iff, CipherKey.encrypt_eq_ok_iff, Outcome.pure_eq_ok_iff]
    constructor
    · rintro ⟨body, ⟨allowed, rfl⟩, rfl⟩
      exact ⟨Nat.not_lt.mp short, allowed, List.append_assoc _ _ _⟩
    · rintro ⟨_, allowed, rfl⟩
      exact ⟨_, ⟨allowed, rfl⟩, List.append_assoc _ _ _⟩

/-- A blob is opened exactly when it is the blob of an image, sealed under whatever nonce. -/
theorem openImage_eq_ok_iff : format.openImage key blob = .ok image ↔
    key.usage.decrypt = true ∧ format.headerLength ≤ image.length ∧
      ∃ nonce, blob = format.blobOf key nonce image := by
  constructor
  · intro opened
    by_cases short : blob.length < format.headerLength + nonceLength
    · rw [openImage, if_pos short] at opened
      cases opened
    · rcases exists_parts (Nat.not_lt.mp short) with ⟨header, nonce, sealed, length, rfl⟩
      rw [openImage_parts length] at opened
      cases body : key.decrypt nonce sealed with
      | error reason => simp [body, Outcome.mapError_error, Except.map] at opened
      | ok plain =>
          rw [body, Outcome.mapError_ok] at opened
          cases opened
          rcases CipherKey.decrypt_eq_ok_iff.mp body with ⟨allowed, rfl⟩
          refine ⟨allowed, ?_, nonce, ?_⟩
          · rw [List.length_append, length]
            exact Nat.le_add_right _ _
          · rw [blobOf, List.take_left' length, List.drop_left' length]
  · rintro ⟨allowed, whole, nonce, rfl⟩
    have length : (image.take format.headerLength).length = format.headerLength := by
      rw [List.length_take]
      omega
    have body := CipherKey.decrypt_eq_ok_iff.mpr
      ⟨allowed, (rfl : Cipher.encrypt key.bytes nonce (image.drop format.headerLength) = _)⟩
    rw [blobOf, openImage_parts length, body, Outcome.mapError_ok]
    show Except.ok (image.take format.headerLength ++ image.drop format.headerLength) = _
    rw [List.take_append_drop]

theorem sealImage_of_both (both : key.usage = .both)
    (whole : format.headerLength ≤ image.length) :
    format.sealImage key nonce image = .ok (format.blobOf key nonce image) :=
  sealImage_eq_ok_iff.mpr ⟨whole, by rw [both]; rfl, rfl⟩

theorem openImage_blobOf (both : key.usage = .both)
    (whole : format.headerLength ≤ image.length) :
    format.openImage key (format.blobOf key nonce image) = .ok image :=
  openImage_eq_ok_iff.mpr ⟨by rw [both]; rfl, whole, nonce, rfl⟩

/-- The header of an image stands in clear at the start of its blobs. -/
theorem take_blobOf (whole : format.headerLength ≤ image.length) :
    (format.blobOf key nonce image).take format.headerLength = image.take format.headerLength := by
  rw [blobOf]
  refine List.take_left' ?_
  rw [List.length_take]
  omega

/-- Images of any format are sealed, unless they lack a whole header, and opened again. Whatever is
opened has the header of its blob and lacks what sealing adds, and no byte string is parted beyond
its end. -/
theorem sealed_images_reopen (format : ImageFormat) :
    (∀ (key : CipherKey) (nonce : Nonce) (image : Bytes), key.usage = .both →
      (image.length < format.headerLength → format.sealImage key nonce image =
        .error (.imageTooShort format.mime format.headerLength)) ∧
      (format.headerLength ≤ image.length → ∃ blob,
        format.sealImage key nonce image = .ok blob ∧
        blob = image.take format.headerLength ++ (nonce.bytes ++
          Cipher.encrypt key.bytes nonce (image.drop format.headerLength)) ∧
        blob.length = image.length + 28 ∧ format.openImage key blob = .ok image)) ∧
    (∀ (key : CipherKey) (blob image : Bytes), format.openImage key blob = .ok image →
      format.headerLength ≤ image.length ∧
        image.take format.headerLength = blob.take format.headerLength ∧
        image.length + 28 = blob.length) ∧
    (∀ (key : CipherKey) (blob : Bytes),
      format.openChecked? key blob = some (format.openImage key blob)) ∧
    ∀ (key : CipherKey) (nonce : Nonce) (image : Bytes),
      format.sealChecked? key nonce image = some (format.sealImage key nonce image) := by
  refine ⟨fun key nonce image both => ⟨fun short => ?_, fun whole => ?_⟩,
    fun key blob image opened => ?_, format.openChecked?_eq, format.sealChecked?_eq⟩
  · rw [sealImage, if_pos short]
  · exact ⟨_, sealImage_of_both both whole, rfl, length_blobOf whole, openImage_blobOf both whole⟩
  · rcases openImage_eq_ok_iff.mp opened with ⟨_, whole, nonce, rfl⟩
    exact ⟨whole, (take_blobOf whole).symm, (length_blobOf whole).symm⟩

end ImageFormat

end SealedCatalog
