import Mathlib.Data.Nat.Bitwise
import SealedCatalog.Base64

/-!
The bits that a text of base64 carries. They stand in its characters, six to each, and zeros and
padding fill the text up, so that the same bits are carried by one text only. Main statement: the
text of a byte string is the one that carries the bits of its bytes.
-/

namespace SealedCatalog

/-! ## Bits -/

namespace Bytes

/-- The lowest bits of a value, as many as asked for and the highest of them first. -/
def lowBits (count value : Nat) : List Bool :=
  (List.range count).map fun position => value.testBit (count - 1 - position)

/-- The bits of a byte string, eight to a byte. -/
def bits (data : Bytes) : List Bool :=
  data.flatMap fun byte => lowBits 8 byte.toNat

theorem length_lowBits (count value : Nat) : (lowBits count value).length = count := by
  rw [lowBits, List.length_map, List.length_range]

theorem length_flatMap_lowBits (count : Nat) (value : α → Nat) (items : List α) :
    (items.flatMap fun item => lowBits count (value item)).length = count * items.length := by
  simp only [List.length_flatMap, length_lowBits]
  rw [List.map_const', List.sum_replicate_nat, Nat.mul_comm]

theorem getElem_lowBits {count value position : Nat}
    (inside : position < (lowBits count value).length) :
    (lowBits count value)[position] = value.testBit (count - 1 - position) := by
  simp [lowBits]

/-- Where one number stands above another, its bits come first. -/
theorem lowBits_append (count width : Nat) {high low : Nat} (small : low < 2 ^ width) :
    lowBits (count + width) (high * 2 ^ width + low) =
      lowBits count high ++ lowBits width low := by
  apply List.ext_getElem
  · rw [List.length_append, length_lowBits, length_lowBits, length_lowBits]
  intro position inside _
  rw [length_lowBits] at inside
  rw [getElem_lowBits, Nat.mul_comm, Nat.testBit_two_pow_mul_add _ small, List.getElem_append]
  simp only [length_lowBits, getElem_lowBits]
  -- Positions are counted from the highest bit, places of `testBit` from the lowest.
  by_cases isHigh : position < count
  · have place : count + width - 1 - position - width = count - 1 - position := by omega
    rw [dif_pos isHigh, if_neg (by omega), place]
  · have place : count + width - 1 - position = width - 1 - (position - count) := by omega
    rw [dif_neg isHigh, if_pos (by omega), place]

theorem lowBits_add (count width value : Nat) :
    lowBits (count + width) value =
      lowBits count (value / 2 ^ width) ++ lowBits width (value % 2 ^ width) := by
  rw [← lowBits_append count width (Nat.mod_lt _ (Nat.two_pow_pos width)), Nat.div_add_mod']

theorem lowBits_injective {count left right : Nat} (leftSmall : left < 2 ^ count)
    (rightSmall : right < 2 ^ count) (same : lowBits count left = lowBits count right) :
    left = right := by
  apply Nat.eq_of_testBit_eq
  intro position
  by_cases inside : position < count
  · have within : count - 1 - position < count := by omega
    have place : count - 1 - (count - 1 - position) = position := by omega
    have bit := congrArg (fun bits => bits[count - 1 - position]?) same
    simpa [lowBits, within, place] using bit
  · have outside : 2 ^ count ≤ 2 ^ position := Nat.pow_le_pow_right (by omega) (by omega)
    rw [Nat.testBit_lt_two_pow (leftSmall.trans_le outside),
      Nat.testBit_lt_two_pow (rightSmall.trans_le outside)]

/-- Any bits are those of a value. -/
theorem exists_lowBits_eq (bits : List Bool) :
    ∃ value < 2 ^ bits.length, lowBits bits.length value = bits := by
  let value := Nat.ofBits fun place : Fin bits.length => bits[bits.length - 1 - place]
  refine ⟨value, Nat.ofBits_lt_two_pow _, ?_⟩
  apply List.ext_getElem (length_lowBits _ _)
  intro position _ inside
  have place : bits.length - 1 - (bits.length - 1 - position) = position := by omega
  rw [getElem_lowBits, Nat.testBit_ofBits_lt _ _ (by omega)]
  simp only [place]

theorem bits_append (first later : Bytes) : bits (first ++ later) = bits first ++ bits later :=
  List.flatMap_append

theorem length_bits (data : Bytes) : data.bits.length = 8 * data.length :=
  length_flatMap_lowBits 8 _ data

theorem take_bits_append (data : Bytes) (count zeros : Nat) :
    (data.bits ++ List.replicate zeros false).take (8 * data.length + count) =
      data.bits ++ List.replicate (min count zeros) false := by
  rw [← length_bits, List.take_length_add_append, List.take_replicate]

/-- Bits that make up whole bytes are those of a byte string. -/
theorem exists_bits_eq {carried : List Bool} (whole : 8 ∣ carried.length) :
    ∃ data : Bytes, data.bits = carried := by
  rcases whole with ⟨count, length⟩
  induction count generalizing carried with
  | zero => exact ⟨[], (List.eq_nil_of_length_eq_zero length).symm⟩
  | succ count induction =>
      have eight : (carried.take 8).length = 8 := by
        rw [List.length_take]
        omega
      have fewer : (carried.drop 8).length = 8 * count := by
        rw [List.length_drop]
        omega
      rcases induction fewer with ⟨later, laterBits⟩
      rcases exists_lowBits_eq (carried.take 8) with ⟨value, small, first⟩
      rw [eight] at small first
      have byte : (UInt8.ofNat value).toNat = value := UInt8.toNat_ofNat_of_lt' small
      refine ⟨UInt8.ofNat value :: later, ?_⟩
      calc bits (UInt8.ofNat value :: later)
          _ = lowBits 8 (UInt8.ofNat value).toNat ++ later.bits := rfl
          _ = carried.take 8 ++ carried.drop 8 := by rw [byte, first, laterBits]
          _ = carried := List.take_append_drop 8 carried

end Bytes

namespace Base64

/-! ## Texts that carry bits -/

def alphabet : List Char :=
  "ABCDEFGHIJKLMNOPQRSTUVWXYZabcdefghijklmnopqrstuvwxyz0123456789+/".toList

/-- The character of a six-bit value. -/
def character (value : Fin 64) : Char :=
  alphabet.get value

/-- The characters of six-bit values, and then padding. -/
def layout (values : List (Fin 64)) (padding : Nat) : List Char :=
  values.map character ++ List.replicate padding '='

def digitBits (values : List (Fin 64)) : List Bool :=
  values.flatMap fun value : Fin 64 => Bytes.lowBits 6 value.val

/-- Texts that carry bits: in their characters stand the bits and then zeros, too few for one
character more, and padding makes the text a whole number of fours. -/
inductive Carries : List Char → List Bool → Prop where
  | intro (values : List (Fin 64)) {carried : List Bool} (filling padding : Nat)
      (held : digitBits values = carried ++ List.replicate filling false)
      (filling_lt : filling < 6) (padding_lt : padding < 4)
      (wholeFours : (values.length + padding) % 4 = 0) :
      Carries (layout values padding) carried

theorem length_digitBits (values : List (Fin 64)) :
    (digitBits values).length = 6 * values.length :=
  Bytes.length_flatMap_lowBits 6 _ values

theorem digitBits_append (first later : List (Fin 64)) :
    digitBits (first ++ later) = digitBits first ++ digitBits later :=
  List.flatMap_append

theorem digitBits_take (values : List (Fin 64)) (count : Nat) :
    digitBits (values.take count) = (digitBits values).take (6 * count) := by
  induction values generalizing count with
  | nil => rw [List.take_nil, digitBits, List.flatMap_nil, List.take_nil]
  | cons value rest induction =>
      cases count with
      | zero => rfl
      | succ count =>
          have first : (Bytes.lowBits 6 value.val).length + 6 * count = 6 * (count + 1) := by
            rw [Bytes.length_lowBits]
            omega
          have later : digitBits ((value :: rest).take (count + 1)) =
              Bytes.lowBits 6 value.val ++ digitBits (rest.take count) := rfl
          rw [later, induction, ← first]
          exact (List.take_length_add_append _).symm

theorem digitBits_injective : Function.Injective digitBits := by
  intro left right same
  have lengths := congrArg List.length same
  rw [length_digitBits, length_digitBits] at lengths
  induction left generalizing right with
  | nil => exact (List.eq_nil_of_length_eq_zero (by simpa using lengths.symm)).symm
  | cons value rest induction =>
      cases right with
      | nil => simp at lengths
      | cons other others =>
          have lengthsOfFirst : (Bytes.lowBits 6 value.val).length =
              (Bytes.lowBits 6 other.val).length := by
            rw [Bytes.length_lowBits, Bytes.length_lowBits]
          rcases List.append_inj same lengthsOfFirst with ⟨first, later⟩
          rw [Fin.ext (Bytes.lowBits_injective value.isLt other.isLt first),
            induction later (by simpa using lengths)]

/-- How many characters hold the bits, and how much padding stands behind them, follows from the
number of the bits. -/
theorem Carries.unique {left right : List Char} {carried : List Bool}
    (first : Carries left carried) (second : Carries right carried) : left = right := by
  rcases first with ⟨leftValues, leftFilling, leftPadding, leftHeld, _, _, leftFours⟩
  rcases second with ⟨rightValues, rightFilling, rightPadding, rightHeld, _, _, rightFours⟩
  have leftLength := congrArg List.length leftHeld
  have rightLength := congrArg List.length rightHeld
  rw [length_digitBits, List.length_append, List.length_replicate] at leftLength rightLength
  have fillings : leftFilling = rightFilling := by omega
  have paddings : leftPadding = rightPadding := by omega
  subst fillings paddings
  rw [digitBits_injective (leftHeld.trans rightHeld.symm)]

/-- Four characters more carry all of their bits. -/
theorem Carries.append {values : List (Fin 64)} {text : List Char} {carried : List Bool}
    (fours : values.length % 4 = 0) (carries : Carries text carried) :
    Carries (values.map character ++ text) (digitBits values ++ carried) := by
  rcases carries with ⟨later, filling, padding, held, few, padded, wholeFours⟩
  have heldAll : digitBits (values ++ later) =
      (digitBits values ++ carried) ++ List.replicate filling false := by
    rw [digitBits_append, held, List.append_assoc]
  have foursAll : ((values ++ later).length + padding) % 4 = 0 := by
    rw [List.length_append]
    omega
  rw [layout, ← List.append_assoc, ← List.map_append]
  exact .intro _ filling padding heldAll few padded foursAll

/-! ## The text of a byte string -/

private theorem alphabet_eq : alphabet = (List.range 64).map encodeDigit := by decide

theorem character_eq (value : Fin 64) : character value = encodeDigit value := by
  refine (List.get_of_eq alphabet_eq _).trans ?_
  simp

/-- The six-bit values of three bytes. -/
def group (a b c : UInt8) : List (Fin 64) :=
  have small := And.intro a.toNat_lt (And.intro b.toNat_lt c.toNat_lt)
  [⟨a.toNat / 4, by omega⟩, ⟨a.toNat % 4 * 16 + b.toNat / 16, by omega⟩,
    ⟨b.toNat % 16 * 4 + c.toNat / 64, by omega⟩, ⟨c.toNat % 64, by omega⟩]

theorem length_group (a b c : UInt8) : (group a b c).length = 4 := rfl

theorem digitBits_group (a b c : UInt8) : digitBits (group a b c) = Bytes.bits [a, b, c] := by
  have next := b.toNat_lt
  have last := c.toNat_lt
  have second : Bytes.lowBits 6 (a.toNat % 4 * 16 + b.toNat / 16) = _ :=
    Bytes.lowBits_append 2 4 (by omega)
  have third : Bytes.lowBits 6 (b.toNat % 16 * 4 + c.toNat / 64) = _ :=
    Bytes.lowBits_append 4 2 (by omega)
  -- The digits cut the bytes after six, four and two bits.
  have bytes : Bytes.bits [a, b, c] = Bytes.lowBits (6 + 2) a.toNat ++
      (Bytes.lowBits (4 + 4) b.toNat ++ Bytes.lowBits (2 + 6) c.toNat) := by
    simp [Bytes.bits]
  rw [bytes, Bytes.lowBits_add, Bytes.lowBits_add, Bytes.lowBits_add]
  simp [digitBits, group, second, third]

theorem encode_cons (a b c : UInt8) (rest : Bytes) :
    encode (a :: b :: c :: rest) = (group a b c).map character ++ encode rest := by
  simp [encode, character_eq, group]

/-- At the end the bytes that are missing count as zeros, and the digits that hold nothing else are
left out. -/
theorem encode_two (a b : UInt8) : encode [a, b] = layout ((group a b 0).take 3) 1 := by
  simp [encode, layout, character_eq, group]

theorem encode_one (a : UInt8) : encode [a] = layout ((group a 0 0).take 2) 2 := by
  simp [encode, layout, character_eq, group]

theorem carries_encode (data : Bytes) : Carries (encode data) data.bits := by
  induction data using encode.induct with
  | case1 => exact .intro [] 0 0 rfl (by decide) (by decide) rfl
  | case2 a =>
      have held : digitBits ((group a 0 0).take 2) = Bytes.bits [a] ++ List.replicate 4 false := by
        have zeros : Bytes.bits [a, 0, 0] = Bytes.bits [a] ++ List.replicate 16 false :=
          Bytes.bits_append [a] [0, 0]
        rw [digitBits_take, digitBits_group, zeros]
        exact Bytes.take_bits_append [a] 4 16
      rw [encode_one]
      exact .intro _ 4 2 held (by decide) (by decide) (by simp [length_group])
  | case3 a b =>
      have held : digitBits ((group a b 0).take 3) =
          Bytes.bits [a, b] ++ List.replicate 2 false := by
        have zeros : Bytes.bits [a, b, 0] = Bytes.bits [a, b] ++ List.replicate 8 false :=
          Bytes.bits_append [a, b] [0]
        rw [digitBits_take, digitBits_group, zeros]
        exact Bytes.take_bits_append [a, b] 2 8
      rw [encode_two]
      exact .intro _ 2 1 held (by decide) (by decide) (by simp [length_group])
  | case4 a b c rest induction =>
      have held : Bytes.bits (a :: b :: c :: rest) =
          digitBits (group a b c) ++ Bytes.bits rest := by
        rw [digitBits_group]
        exact Bytes.bits_append [a, b, c] rest
      rw [encode_cons, held]
      exact induction.append (by rw [length_group])

theorem eq_encode_iff_carries {text : List Char} {data : Bytes} :
    text = encode data ↔ Carries text data.bits := by
  constructor
  · intro same
    rw [same]
    exact carries_encode data
  · intro carries
    exact carries.unique (carries_encode data)

end Base64

end SealedCatalog
