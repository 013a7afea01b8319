import SealedCatalog.Bytes
import SealedCatalog.Marker

/-! Byte strings are read back from their spellings: from base64, from a marker string, and from
UTF-8 where they spell a text. -/

namespace SealedCatalog

namespace Base64

theorem decodeDigit?_encodeDigit {value : Nat} (small : value < 64) :
    decodeDigit? (encodeDigit value) = some value := by
  have each : ∀ value : Fin 64, decodeDigit? (encodeDigit value) = some value.val := by decide
  exact each ⟨value, small⟩

theorem encodeDigit_ne_padding {value : Nat} (small : value < 64) : encodeDigit value ≠ '=' := by
  have each : ∀ value : Fin 64, encodeDigit value ≠ '=' := by decide
  exact each ⟨value, small⟩

private theorem firstByte_eq (a b : UInt8) :
    firstByte (a.toNat / 4) (a.toNat % 4 * 16 + b.toNat / 16) = a := by
  have small := b.toNat_lt
  have whole : a.toNat / 4 * 4 + (a.toNat % 4 * 16 + b.toNat / 16) / 16 = a.toNat := by omega
  rw [firstByte, whole, UInt8.ofNat_toNat]

private theorem secondByte_eq (a b c : UInt8) :
    secondByte (a.toNat % 4 * 16 + b.toNat / 16) (b.toNat % 16 * 4 + c.toNat / 64) = b := by
  have small := b.toNat_lt
  have next := c.toNat_lt
  have whole : (a.toNat % 4 * 16 + b.toNat / 16) % 16 * 16 +
      (b.toNat % 16 * 4 + c.toNat / 64) / 4 = b.toNat := by omega
  rw [secondByte, whole, UInt8.ofNat_toNat]

private theorem thirdByte_eq (b c : UInt8) :
    thirdByte (b.toNat % 16 * 4 + c.toNat / 64) (c.toNat % 64) = c := by
  have small := c.toNat_lt
  have whole : (b.toNat % 16 * 4 + c.toNat / 64) % 4 * 64 + c.toNat % 64 = c.toNat := by omega
  rw [thirdByte, whole, UInt8.ofNat_toNat]

/-- Characters before others are four that hold three bytes. -/
private theorem decode?_cons {p q r s : Char} {rest : List Char} (more : rest ≠ []) :
    decode? (p :: q :: r :: s :: rest) = (do
      let first ← decodeDigit? p
      let second ← decodeDigit? q
      let third ← decodeDigit? r
      let fourth ← decodeDigit? s
      let bytes ← decode? rest
      some (firstByte first second :: secondByte second third :: thirdByte third fourth ::
        bytes)) := by
  cases rest with
  | nil => exact absurd rfl more
  | cons head tail => rfl

theorem decode?_encode (data : Bytes) : decode? (encode data) = some data := by
  induction data using encode.induct with
  | case1 => rfl
  | case2 a =>
      have small := a.toNat_lt
      have first := firstByte_eq a 0
      rw [encode, decode?, decodeLast?, decodeDigit?_encodeDigit (by omega),
        decodeDigit?_encodeDigit (by omega)]
      have filled : a.toNat % 4 * 16 % 16 = 0 := by omega
      simpa [filled] using first
  | case3 a b =>
      have small := a.toNat_lt
      have next := b.toNat_lt
      have first := firstByte_eq a b
      have second := secondByte_eq a b 0
      have digit : b.toNat % 16 * 4 < 64 := by omega
      rw [encode, decode?, decodeLast?, decodeDigit?_encodeDigit (by omega),
        decodeDigit?_encodeDigit (by omega), decodeDigit?_encodeDigit digit]
      have filled : b.toNat % 16 * 4 % 4 = 0 := by omega
      simpa [filled, encodeDigit_ne_padding digit, first] using second
  | case4 a b c rest induction =>
      have small := a.toNat_lt
      have next := b.toNat_lt
      have last := c.toNat_lt
      have digits : decodeDigit? (encodeDigit (a.toNat / 4)) = some (a.toNat / 4) ∧
          decodeDigit? (encodeDigit (a.toNat % 4 * 16 + b.toNat / 16)) =
            some (a.toNat % 4 * 16 + b.toNat / 16) ∧
          decodeDigit? (encodeDigit (b.toNat % 16 * 4 + c.toNat / 64)) =
            some (b.toNat % 16 * 4 + c.toNat / 64) ∧
          decodeDigit? (encodeDigit (c.toNat % 64)) = some (c.toNat % 64) := by
        refine ⟨?_, ?_, ?_, ?_⟩ <;> exact decodeDigit?_encodeDigit (by omega)
      rcases digits with ⟨first, second, third, fourth⟩
      have bytes :=
        And.intro (firstByte_eq a b) (And.intro (secondByte_eq a b c) (thirdByte_eq b c))
      by_cases more : encode rest = []
      · have ended : rest = [] := by
          rw [more] at induction
          exact (Option.some.inj induction).symm
        subst ended
        have unpadded : encodeDigit (c.toNat % 64) ≠ '=' := encodeDigit_ne_padding (by omega)
        simp [encode, decode?, decodeLast?, first, second, third, fourth, unpadded, bytes]
      · rw [encode, decode?_cons more, first, second, third, fourth, induction]
        simp [bytes]

end Base64

namespace Bytes

theorem afterStart?_append [BEq α] [LawfulBEq α] (start rest : List α) :
    afterStart? start (start ++ rest) = some rest := by
  simp [afterStart?]

theorem ofMarked_toMarked (data : Bytes) : ofMarked data.toMarked = .ok data := by
  rw [ofMarked, toMarked, String.toList_append, String.toList_ofList, afterStart?_append]
  simp [Base64.decode?_encode]

private theorem toList_loop (array : ByteArray) (position : Nat) (before : Bytes) :
    ByteArray.toList.loop array position before =
      before.reverse ++ array.data.toList.drop position := by
  fun_induction ByteArray.toList.loop array position before with
  | case1 position before inside induction =>
      have within : position < array.data.toList.length := inside
      have byte : array.get! position = array.data.toList[position] := by
        simp [ByteArray.get!, getElem!_pos array.data position inside]
      rw [induction, List.reverse_cons, byte, List.append_assoc, List.singleton_append,
        List.getElem_cons_drop]
  | case2 position before outside =>
      have ended : array.data.toList.length ≤ position := Nat.le_of_not_lt outside
      rw [List.drop_eq_nil_of_le ended, List.append_nil]

theorem toText?_ofText (text : String) : (ofText text).toText? = some text := by
  have same : ByteArray.mk (ofText text).toArray = text.toUTF8 := by
    rw [ofText, ByteArray.toList, toList_loop]
    rfl
  rw [toText?, same]
  exact dif_pos text.isValidUTF8

end Bytes

end SealedCatalog
