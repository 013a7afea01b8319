import SealedCatalog.Cipher

/-! Authenticated encryption is undone by decryption under the same key and nonce. -/

namespace SealedCatalog

theorem length_zeroKey : (List.replicate keyLength (0 : UInt8)).length = keyLength :=
  List.length_replicate

theorem Nonce.ofBytes?_bytes (nonce : Nonce) : ofBytes? nonce.bytes = some nonce :=
  dif_pos nonce.length_bytes

theorem Cipher.Gcm.decrypt?_encrypt (cipher : BlockCipher) (nonce plain : Bytes) :
    decrypt? cipher nonce (encrypt cipher nonce plain) = some plain := by
  have length : (encrypt cipher nonce plain).length - tagLength =
      (mask cipher nonce plain).length := by
    simp [encrypt]
  have masked : (encrypt cipher nonce plain).take (mask cipher nonce plain).length =
      mask cipher nonce plain := List.take_left
  have given : (encrypt cipher nonce plain).drop (mask cipher nonce plain).length =
      tag cipher nonce (mask cipher nonce plain) := List.drop_left
  rw [decrypt?, length, masked, given]
  rw [if_pos rfl, mask_mask]

theorem Cipher.decrypt_encrypt (key : Bytes) (nonce : Nonce) (plain : Bytes) :
    decrypt key nonce (encrypt key nonce plain) = .ok plain := by
  unfold decrypt encrypt
  rw [Gcm.decrypt?_encrypt]

namespace CipherKey

theorem ofBytes_eq_ok_iff {raw : Bytes} {usage : KeyUsage} {key : CipherKey} :
    ofBytes raw usage = .ok key ↔ raw = key.bytes ∧ key.usage = usage := by
  rcases key with ⟨bytes, keyUsage, length⟩
  rw [ofBytes]
  split
  · simp [eq_comm]
  next other =>
    constructor
    · intro refused
      cases refused
    · rintro ⟨rfl, _⟩
      exact absurd length other

theorem encrypt_of_both {key : CipherKey} (both : key.usage = .both) (nonce : Nonce)
    (plain : Bytes) : key.encrypt nonce plain = .ok (Cipher.encrypt key.bytes nonce plain) := by
  rw [encrypt, both]
  rfl

theorem decrypt_of_both {key : CipherKey} (both : key.usage = .both) (nonce : Nonce)
    (plain : Bytes) :
    key.decrypt nonce (Cipher.encrypt key.bytes nonce plain) = .ok plain := by
  rw [decrypt, both]
  exact Cipher.decrypt_encrypt key.bytes nonce plain

end CipherKey

end SealedCatalog
