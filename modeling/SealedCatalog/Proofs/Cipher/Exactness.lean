import SealedCatalog.Proofs.Cipher

/-! What decryption accepts is exactly what encryption gives. Under a key and a nonce every plain
text has one sealed text, and a sealed text with another tag is refused. A sealed text that is cut
short never gives its plain text, but what is left of it may be the sealed text of another one. -/

namespace SealedCatalog

namespace Cipher

theorem Gcm.decrypt?_eq_some_iff {cipher : BlockCipher} {nonce plain sealed : Bytes} :
    decrypt? cipher nonce sealed = some plain ↔ sealed = encrypt cipher nonce plain := by
  constructor
  · intro accepted
    simp only [decrypt?, Option.ite_none_right_eq_some, Option.some.injEq] at accepted
    rcases accepted with ⟨authentic, unmasked⟩
    rw [encrypt, ← unmasked, mask_mask, ← authentic, List.take_append_drop]
  · intro same
    rw [same]
    exact decrypt?_encrypt cipher nonce plain

theorem Gcm.length_encrypt (cipher : BlockCipher) (nonce plain : Bytes) :
    (encrypt cipher nonce plain).length = plain.length + tagLength := by
  rw [encrypt, List.length_append, length_mask, length_tag]

/-- Every text is the body of a sealed text. -/
theorem Gcm.encrypt_mask (cipher : BlockCipher) (nonce body : Bytes) :
    encrypt cipher nonce (mask cipher nonce body) = body ++ tag cipher nonce body := by
  rw [encrypt, mask_mask]

theorem decrypt_eq_ok_iff {key plain sealed : Bytes} {nonce : Nonce} :
    decrypt key nonce sealed = .ok plain ↔ sealed = encrypt key nonce plain := by
  unfold encrypt decrypt
  rw [← Gcm.decrypt?_eq_some_iff]
  generalize Gcm.decrypt? (Aes.encryptWith (Aes.roundKeys key)) nonce.bytes sealed = opened
  cases opened <;> simp

theorem decrypt_eq_error_iff {key sealed : Bytes} {nonce : Nonce} {reason : CipherError} :
    decrypt key nonce sealed = .error reason ↔
      reason = .unauthentic ∧ ∀ plain, sealed ≠ encrypt key nonce plain := by
  simp only [ne_eq, ← decrypt_eq_ok_iff]
  unfold decrypt
  generalize Gcm.decrypt? (Aes.encryptWith (Aes.roundKeys key)) nonce.bytes sealed = opened
  cases opened <;> simp [eq_comm]

theorem length_encrypt (key : Bytes) (nonce : Nonce) (plain : Bytes) :
    (encrypt key nonce plain).length = plain.length + Gcm.tagLength :=
  Gcm.length_encrypt _ nonce.bytes plain

/-- Two ways that undo each other exactly. -/
structure AreExact (encrypt : Bytes → Bytes) (decrypt : Bytes → Except CipherError Bytes) :
    Prop where
  opens : ∀ plain, decrypt (encrypt plain) = .ok plain
  length : ∀ plain, (encrypt plain).length = plain.length + Gcm.tagLength
  only : ∀ {plain sealed}, decrypt sealed = .ok plain → sealed = encrypt plain
  /-- Every failure is the same. -/
  refuses : ∀ {sealed}, (∀ plain, sealed ≠ encrypt plain) → decrypt sealed = .error .unauthentic
  /-- The body of a sealed text is refused with any other tag. -/
  otherTag : ∀ {plain body tag other}, encrypt plain = body ++ tag → tag.length = Gcm.tagLength →
    other.length = Gcm.tagLength → other ≠ tag → decrypt (body ++ other) = .error .unauthentic
  /-- A sealed text that is cut short is refused, unless what is left is the sealed text of a
  shorter plain text. -/
  cut : ∀ {plain left lost}, encrypt plain = left ++ lost → lost ≠ [] →
    decrypt left = .error .unauthentic ∨
      ∃ other, other.length < plain.length ∧ left = encrypt other ∧ decrypt left = .ok other

/-- The longer of two sealed texts of which one begins the other has the longer plain text. -/
private theorem length_lt_of_encrypt_eq_append {key plain other lost : Bytes} {nonce : Nonce}
    (same : encrypt key nonce plain = encrypt key nonce other ++ lost) (more : lost ≠ []) :
    other.length < plain.length := by
  have lengths := congrArg List.length same
  rw [List.length_append, length_encrypt, length_encrypt] at lengths
  have positive := List.length_pos_iff.mpr more
  omega

/-- The last sixteen bytes of a sealed text are the tag of those before them. -/
private theorem eq_tag_of_encrypt_eq_append {key plain body given : Bytes} {nonce : Nonce}
    (same : encrypt key nonce plain = body ++ given) (length : given.length = Gcm.tagLength) :
    given = Gcm.tag (Aes.encryptWith (Aes.roundKeys key)) nonce.bytes body := by
  have parts := List.append_inj' same (by rw [Gcm.length_tag, length])
  rw [← parts.1, ← parts.2]

theorem areExact (key : Bytes) (nonce : Nonce) :
    AreExact (encrypt key nonce) (decrypt key nonce) where
  opens := decrypt_encrypt key nonce
  length := length_encrypt key nonce
  only := decrypt_eq_ok_iff.mp
  refuses := fun none => decrypt_eq_error_iff.mpr ⟨rfl, none⟩
  otherTag := by
    intro plain body tag given same length givenLength different
    refine decrypt_eq_error_iff.mpr ⟨rfl, fun other found => different ?_⟩
    rw [eq_tag_of_encrypt_eq_append same length,
      eq_tag_of_encrypt_eq_append found.symm givenLength]
  cut := by
    intro plain left lost same more
    by_cases found : ∃ other, left = encrypt key nonce other
    · obtain ⟨other, rfl⟩ := found
      refine .inr ⟨other, ?_, rfl, decrypt_encrypt key nonce other⟩
      exact length_lt_of_encrypt_eq_append same more
    · exact .inl (decrypt_eq_error_iff.mpr ⟨rfl, not_exists.mp found⟩)

end Cipher

namespace CipherKey

theorem encrypt_eq_ok_iff {key : CipherKey} {nonce : Nonce} {plain sealed : Bytes} :
    key.encrypt nonce plain = .ok sealed ↔
      key.usage.encrypt = true ∧ sealed = Cipher.encrypt key.bytes nonce plain := by
  rw [encrypt]
  cases key.usage.encrypt <;> simp [eq_comm]

theorem encrypt_eq_error_iff {key : CipherKey} {nonce : Nonce} {plain : Bytes}
    {reason : CipherError} : key.encrypt nonce plain = .error reason ↔
      key.usage.encrypt = false ∧ reason = .notForEncryption := by
  rw [encrypt]
  cases key.usage.encrypt <;> simp [eq_comm]

theorem decrypt_eq_ok_iff {key : CipherKey} {nonce : Nonce} {plain sealed : Bytes} :
    key.decrypt nonce sealed = .ok plain ↔
      key.usage.decrypt = true ∧ sealed = Cipher.encrypt key.bytes nonce plain := by
  rw [decrypt, ← Cipher.decrypt_eq_ok_iff]
  cases key.usage.decrypt <;> simp

theorem decrypt_eq_error_iff {key : CipherKey} {nonce : Nonce} {sealed : Bytes}
    {reason : CipherError} : key.decrypt nonce sealed = .error reason ↔
      key.usage.decrypt = false ∧ reason = .notForDecryption ∨
        key.usage.decrypt = true ∧ Cipher.decrypt key.bytes nonce sealed = .error reason := by
  rw [decrypt]
  cases key.usage.decrypt <;> simp [eq_comm]

/-- What the directions of a key do that it is bound to: each does what the cipher does, and fails
for a reason of its own where the key may not be used. -/
structure IsExact (key : CipherKey) (nonce : Nonce) : Prop where
  encrypts : ∀ {plain sealed}, key.encrypt nonce plain = .ok sealed ↔
    key.usage.encrypt = true ∧ sealed = Cipher.encrypt key.bytes nonce plain
  mayNotEncrypt : ∀ {plain reason}, key.encrypt nonce plain = .error reason ↔
    key.usage.encrypt = false ∧ reason = .notForEncryption
  decrypts : ∀ {plain sealed}, key.decrypt nonce sealed = .ok plain ↔
    key.usage.decrypt = true ∧ sealed = Cipher.encrypt key.bytes nonce plain
  mayNotDecrypt : ∀ {sealed reason}, key.decrypt nonce sealed = .error reason ↔
    key.usage.decrypt = false ∧ reason = .notForDecryption ∨
      key.usage.decrypt = true ∧ Cipher.decrypt key.bytes nonce sealed = .error reason

/-- Encryption and decryption under a key undo each other exactly, with the bare bytes of the key
and in the directions that the key is bound to. -/
theorem encrypts_and_decrypts_exactly (key : CipherKey) (nonce : Nonce) :
    Cipher.AreExact (Cipher.encrypt key.bytes nonce) (Cipher.decrypt key.bytes nonce) ∧
      key.IsExact nonce :=
  ⟨Cipher.areExact key.bytes nonce, encrypt_eq_ok_iff, encrypt_eq_error_iff, decrypt_eq_ok_iff,
    decrypt_eq_error_iff⟩

/-- A key of zeros, for both directions. -/
def zeros : CipherKey := ⟨List.replicate keyLength 0, .both, length_zeroKey⟩

/-- Tags that are cut short are not always refused: the body of this sealed text is itself the
sealed text of nothing, and is what is left when the tag is cut off. -/
theorem not_refuses_every_cut_tag :
    ¬ ∀ (key : CipherKey) (nonce : Nonce) (plain body tag : Bytes),
      Cipher.encrypt key.bytes nonce plain = body ++ tag → tag.length = Cipher.Gcm.tagLength →
        ∀ kept < Cipher.Gcm.tagLength,
          Cipher.decrypt key.bytes nonce (body ++ tag.take kept) = .error .unauthentic := by
  intro refuses
  let cipher := Cipher.Aes.encryptWith (Cipher.Aes.roundKeys zeros.bytes)
  let body := Cipher.encrypt zeros.bytes .zero []
  have sealed := Cipher.Gcm.encrypt_mask cipher Nonce.zero.bytes body
  have length := Cipher.Gcm.length_tag cipher Nonce.zero.bytes body
  have refused := refuses zeros .zero _ body _ sealed length 0 (by decide)
  rw [List.take_zero, List.append_nil, Cipher.decrypt_encrypt] at refused
  cases refused

end CipherKey

end SealedCatalog
