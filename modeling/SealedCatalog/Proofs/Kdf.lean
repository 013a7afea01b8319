import SealedCatalog.Kdf

/-! A derived key is as long as was asked for. -/

namespace SealedCatalog

namespace Kdf

theorem Blake2b.size_absorb (hash : Array UInt64) (count length : Nat) {blocks : List Bytes}
    (some : blocks ≠ []) : (absorb hash count length blocks).size = 8 := by
  fun_induction absorb hash count length blocks with
  | case1 => exact absurd rfl some
  | case2 => exact Array.size_ofFn
  | case3 hash count block rest more induction => exact induction more

theorem Blake2b.length_ofWords (words : Array UInt64) :
    (ofWords words).length = 8 * words.size := by
  have each (word : UInt64) : (Bytes.littleEndian 8 word.toNat).length = 8 := by
    rw [Bytes.littleEndian, List.length_map, List.length_range]
  simp only [ofWords, List.length_flatMap, each, List.map_const', List.sum_replicate_nat,
    Array.length_toList]
  omega

theorem Blake2b.length_hash {length : Nat} (short : length ≤ 64) (data : Bytes) :
    (hash length data).length = length := by
  let count := max 1 ((data.length + (blockSize - 1)) / blockSize)
  have some : Bytes.chunks blockSize count data ≠ [] := by
    obtain ⟨more, succ⟩ : ∃ more, count = more + 1 := ⟨count - 1, by omega⟩
    rw [succ, Bytes.chunks]
    exact List.cons_ne_nil _ _
  rw [hash, List.length_take, length_ofWords, size_absorb _ _ _ some]
  omega

theorem Argon2.length_derive {parameters : Parameters} (short : parameters.outputLength ≤ 64)
    (password salt : Bytes) :
    (derive parameters password salt).length = parameters.outputLength := by
  rw [derive]
  rw [hash, if_pos short, Blake2b.length_hash short]

end Kdf

theorem KdfRequest.exists_derive_eq_ok {request : KdfRequest} (sound : request.defect? = none)
    (short : request.outputLength.toNat ≤ 64) :
    ∃ key, request.derive = .ok key ∧ key.length = request.outputLength.toNat := by
  have short : request.parameters.outputLength ≤ 64 := short
  refine ⟨Kdf.Argon2.derive request.parameters request.password request.salt, ?_, ?_⟩
  · rw [derive, sound]
  · exact Kdf.Argon2.length_derive short request.password request.salt

end SealedCatalog
