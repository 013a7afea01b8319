import SealedCatalog.Proofs.Base64.Carrying
import SealedCatalog.Proofs.Marker.Yielding

/-!
Every byte string has one text. What the reader of base64 accepts is what the writer gives, and what
it refuses has one of four faults. Main statement: a byte string is read from the marker with the
characters behind it that carry its bits, and from no other text, by itself or in a document.
-/

namespace SealedCatalog

namespace Base64

/-! ## What is read -/

theorem encodeDigit_of_decodeDigit? {char : Char} {value : Nat}
    (read : decodeDigit? char = some value) : value < 64 ∧ encodeDigit value = char := by
  simp only [decodeDigit?, Bool.and_eq_true, decide_eq_true_eq] at read
  split at read
  next upper =>
      cases read
      have code : 65 + (char.toNat - 65) = char.toNat := by omega
      rw [encodeDigit, if_pos (by omega), code, Char.ofNat_toNat]
      exact ⟨by omega, rfl⟩
  split at read
  next lower =>
      cases read
      have code : 71 + (char.toNat - 71) = char.toNat := by omega
      rw [encodeDigit, if_neg (by omega), if_pos (by omega), code, Char.ofNat_toNat]
      exact ⟨by omega, rfl⟩
  split at read
  next decimal =>
      cases read
      have code : char.toNat + 4 - 4 = char.toNat := by omega
      rw [encodeDigit, if_neg (by omega), if_neg (by omega), if_pos (by omega), code,
        Char.ofNat_toNat]
      exact ⟨by omega, rfl⟩
  split at read
  next plus =>
      cases read
      exact ⟨by decide, plus.symm⟩
  next =>
      rcases Option.ite_none_right_eq_some.mp read with ⟨slash, last⟩
      cases last
      exact ⟨by decide, slash.symm⟩

/-- Whatever goes on with a digit was given the value of a character. -/
theorem exists_character_of_bind {char : Char} {next : Nat → Option α} {result : α}
    (read : (decodeDigit? char).bind next = some result) :
    ∃ digit : Fin 64, character digit = char ∧ next digit = some result := by
  rcases Option.bind_eq_some_iff.mp read with ⟨value, digit, later⟩
  rcases encodeDigit_of_decodeDigit? digit with ⟨small, same⟩
  exact ⟨⟨value, small⟩, (character_eq _).trans same, later⟩

/-- The bytes of four digits have these digits. -/
theorem group_bytes (p q r s : Fin 64) :
    group (firstByte p q) (secondByte q r) (thirdByte r s) = [p, q, r, s] := by
  have byte : ∀ {value : Nat}, value < 256 → (UInt8.ofNat value).toNat = value :=
    UInt8.toNat_ofNat_of_lt'
  have first : (firstByte p q).toNat = p * 4 + q / 16 := byte (by omega)
  have second : (secondByte q r).toNat = q % 16 * 16 + r / 4 := byte (by omega)
  have third : (thirdByte r s).toNat = r % 4 * 64 + s := byte (by omega)
  simp only [group, first, second, third, List.cons.injEq, Fin.ext_iff, and_true]
  omega

theorem encode_of_decodeLast? {p q r s : Char} {data : Bytes}
    (read : decodeLast? p q r s = some data) : encode data = [p, q, r, s] := by
  rw [decodeLast?] at read
  rcases exists_character_of_bind read with ⟨first, rfl, afterFirst⟩
  rcases exists_character_of_bind afterFirst with ⟨second, rfl, ending⟩
  split at ending
  next ended =>
      subst ended
      split at ending
      next short =>
          subst short
          rcases Option.ite_none_right_eq_some.mp ending with ⟨unused, written⟩
          cases written
          have missing : secondByte second (0 : Fin 64) = 0 := by simp [secondByte, unused]
          have values : group (firstByte first second) 0 0 = [first, second, 0, 0] := by
            rw [← group_bytes, missing]
            rfl
          rw [encode_one, values]
          rfl
      next =>
          rcases exists_character_of_bind ending with ⟨third, rfl, afterThird⟩
          rcases Option.ite_none_right_eq_some.mp afterThird with ⟨unused, written⟩
          cases written
          have missing : thirdByte third (0 : Fin 64) = 0 := by simp [thirdByte, unused]
          have values : group (firstByte first second) (secondByte second third) 0 =
              [first, second, third, 0] := by
            rw [← group_bytes, missing]
          rw [encode_two, values]
          rfl
  next =>
      rcases exists_character_of_bind ending with ⟨third, rfl, afterThird⟩
      rcases exists_character_of_bind afterThird with ⟨fourth, rfl, written⟩
      cases written
      rw [encode_cons, group_bytes]
      rfl

theorem encode_of_decode? {text : List Char} {data : Bytes} (read : decode? text = some data) :
    encode data = text := by
  fun_induction decode? text generalizing data with
  | case1 =>
      cases read
      rfl
  | case2 p q r s => exact encode_of_decodeLast? read
  | case3 p q r s rest _ induction =>
      rcases exists_character_of_bind read with ⟨first, rfl, afterFirst⟩
      rcases exists_character_of_bind afterFirst with ⟨second, rfl, afterSecond⟩
      rcases exists_character_of_bind afterSecond with ⟨third, rfl, afterThird⟩
      rcases exists_character_of_bind afterThird with ⟨fourth, rfl, afterFourth⟩
      rcases Option.bind_eq_some_iff.mp afterFourth with ⟨later, readLater, written⟩
      cases written
      rw [encode_cons, group_bytes, induction readLater]
      rfl
  | case4 => cases read

theorem decode?_eq_some_iff {text : List Char} {data : Bytes} :
    decode? text = some data ↔ Carries text data.bits := by
  rw [← eq_encode_iff_carries]
  constructor
  · intro read
    exact (encode_of_decode? read).symm
  · intro same
    rw [same]
    exact decode?_encode data

/-! ## What is refused -/

/-- What can be wrong with characters that are to be read. -/
inductive IsFaulty : List Char → Prop where
  /-- A character, white space for one, is neither in the alphabet nor padding. -/
  | foreign {text : List Char} (char : Char) (member : char ∈ text) (unknown : char ∉ alphabet)
      (notPadding : char ≠ '=') : IsFaulty text
  /-- Something else stands behind padding. -/
  | paddingInside {text : List Char}
      (broken : ¬ text.Pairwise fun before after => before = '=' → after = '=') : IsFaulty text
  /-- Padding is missing, or there is too much of it. -/
  | padding (values : List (Fin 64)) (count : Nat)
      (wrong : (values.length + count) % 4 ≠ 0 ∨ 2 < count) : IsFaulty (layout values count)
  /-- A bit is set behind the last whole byte. -/
  | unusedBit (values : List (Fin 64)) (count : Nat)
      (isSet : true ∈ (digitBits values).drop (8 * ((digitBits values).length / 8))) :
      IsFaulty (layout values count)

theorem mem_alphabet_iff {char : Char} : char ∈ alphabet ↔ ∃ value, character value = char :=
  List.mem_iff_get

theorem character_ne_padding (value : Fin 64) : character value ≠ '=' := by
  rw [character_eq]
  exact encodeDigit_ne_padding value.isLt

theorem character_injective : Function.Injective character := by
  intro left right same
  have read := decodeDigit?_encodeDigit left.isLt
  rw [← character_eq, same, character_eq, decodeDigit?_encodeDigit right.isLt] at read
  exact Fin.ext (Option.some.inj read).symm

theorem mem_layout {values : List (Fin 64)} {padding : Nat} {char : Char}
    (member : char ∈ layout values padding) : char ∈ alphabet ∨ char = '=' := by
  rcases List.mem_append.mp member with inside | behind
  · rcases List.mem_map.mp inside with ⟨value, _, same⟩
    exact .inl (mem_alphabet_iff.mpr ⟨value, same⟩)
  · exact .inr (List.eq_of_mem_replicate behind)

theorem pairwise_layout (values : List (Fin 64)) (padding : Nat) :
    (layout values padding).Pairwise fun before after => before = '=' → after = '=' := by
  have characters : (values.map character).Pairwise fun before after =>
      before = '=' → after = '=' := by
    apply List.pairwise_map.mpr
    apply List.pairwise_of_forall
    intro value _ same
    exact absurd same (character_ne_padding value)
  have behind : (List.replicate padding '=').Pairwise fun before after =>
      before = '=' → after = '=' := List.pairwise_replicate.mpr (.inr fun same => same)
  apply List.pairwise_append.mpr ⟨characters, behind, ?_⟩
  intro _ _ after member _
  exact List.eq_of_mem_replicate member

theorem count_layout (values : List (Fin 64)) (padding : Nat) :
    (layout values padding).count '=' = padding := by
  have absent : '=' ∉ values.map character := by
    intro member
    rcases List.mem_map.mp member with ⟨value, _, same⟩
    exact character_ne_padding value same
  rw [layout, List.count_append, List.count_eq_zero.mpr absent, List.count_replicate_self,
    Nat.zero_add]

theorem layout_injective {left right : List (Fin 64)} {leftPadding rightPadding : Nat}
    (same : layout left leftPadding = layout right rightPadding) :
    left = right ∧ leftPadding = rightPadding := by
  have paddings := congrArg (List.count '=') same
  rw [count_layout, count_layout] at paddings
  subst paddings
  exact ⟨List.map_injective_iff.mpr character_injective (List.append_cancel_right same), rfl⟩

/-- A text of known characters in which nothing stands behind padding is laid out. -/
theorem exists_layout_eq {text : List Char} (known : ∀ char ∈ text, char ∈ alphabet ∨ char = '=')
    (ordered : text.Pairwise fun before after => before = '=' → after = '=') :
    ∃ values padding, layout values padding = text := by
  induction text with
  | nil => exact ⟨[], 0, rfl⟩
  | cons char rest induction =>
      rw [List.forall_mem_cons] at known
      rw [List.pairwise_cons] at ordered
      rcases known.1 with inAlphabet | rfl
      · rcases induction known.2 ordered.2 with ⟨values, padding, rfl⟩
        rcases mem_alphabet_iff.mp inAlphabet with ⟨value, rfl⟩
        exact ⟨value :: values, padding, rfl⟩
      · have padded : rest = List.replicate rest.length '=' :=
          List.eq_replicate_of_mem fun after member => ordered.1 after member rfl
        exact ⟨[], rest.length + 1, by rw [layout, List.replicate_succ, ← padded]; rfl⟩

theorem not_carries_of_isFaulty {text : List Char} (faulty : IsFaulty text) (data : Bytes) :
    ¬ Carries text data.bits := by
  intro carries
  -- The carrying text gets a name of its own, since the faulty one has a shape already.
  generalize laidOut : text = copy at carries
  rcases carries with ⟨values, filling, padding, held, few, padded, wholeFours⟩
  have length := congrArg List.length held
  rw [length_digitBits, List.length_append, Bytes.length_bits, List.length_replicate] at length
  cases faulty with
  | foreign char member unknown notPadding =>
      rcases mem_layout (laidOut ▸ member) with inAlphabet | isPadding
      · exact unknown inAlphabet
      · exact notPadding isPadding
  | paddingInside broken => exact broken (laidOut ▸ pairwise_layout values padding)
  | padding others otherPadding wrong =>
      rcases layout_injective laidOut with ⟨rfl, rfl⟩
      omega
  | unusedBit others otherPadding isSet =>
      rcases layout_injective laidOut with ⟨rfl, rfl⟩
      have whole : 8 * ((digitBits others).length / 8) = data.bits.length := by
        rw [length_digitBits, Bytes.length_bits]
        omega
      rw [whole, held, List.drop_left] at isSet
      exact absurd (List.eq_of_mem_replicate isSet) (by decide)

theorem exists_carries_of_not_isFaulty {text : List Char} (sound : ¬ IsFaulty text) :
    ∃ data : Bytes, Carries text data.bits := by
  have known : ∀ char ∈ text, char ∈ alphabet ∨ char = '=' := by
    intro char member
    by_contra foreign
    rw [not_or] at foreign
    exact sound (.foreign char member foreign.1 foreign.2)
  have ordered : text.Pairwise fun before after => before = '=' → after = '=' := by
    by_contra broken
    exact sound (.paddingInside broken)
  rcases exists_layout_eq known ordered with ⟨values, padding, rfl⟩
  have padded : (values.length + padding) % 4 = 0 ∧ padding ≤ 2 := by
    by_contra wrong
    exact sound (.padding values padding (by omega))
  let whole := 8 * ((digitBits values).length / 8)
  have unused : ∀ bit ∈ (digitBits values).drop whole, bit = false := by
    intro bit member
    by_contra isSet
    rw [Bool.not_eq_false] at isSet
    exact sound (.unusedBit values padding (isSet ▸ member))
  have bytes : 8 ∣ ((digitBits values).take whole).length := by
    rw [List.length_take_of_le (Nat.mul_div_le _ _)]
    exact Nat.dvd_mul_right _ _
  rcases Bytes.exists_bits_eq bytes with ⟨data, bits⟩
  have held : digitBits values =
      data.bits ++ List.replicate ((digitBits values).drop whole).length false := by
    rw [bits, ← List.eq_replicate_of_mem unused, List.take_append_drop]
  -- Six bits are left over only by a character alone in its four, which takes three of padding.
  have few : ((digitBits values).drop whole).length < 6 := by
    have length := length_digitBits values
    rw [List.length_drop]
    omega
  exact ⟨data, .intro values _ padding held few (by omega) padded.1⟩

theorem decode?_eq_none_iff {text : List Char} : decode? text = none ↔ IsFaulty text := by
  rw [Option.eq_none_iff_forall_ne_some]
  constructor
  · intro refused
    by_contra sound
    rcases exists_carries_of_not_isFaulty sound with ⟨data, carries⟩
    exact refused data (decode?_eq_some_iff.mpr carries)
  · intro faulty data read
    exact not_carries_of_isFaulty faulty data (decode?_eq_some_iff.mp read)

end Base64

/-! ## Marked texts -/

theorem Json.ofBytes_injective : Function.Injective ofBytes := by
  intro left right same
  have read := ofJson?_ofBytes left
  rw [same, ofJson?_ofBytes] at read
  exact (Option.some.inj read).symm

namespace Bytes

theorem afterStart?_eq_some_iff [BEq α] [LawfulBEq α] {start text rest : List α} :
    afterStart? start text = some rest ↔ text = start ++ rest := by
  constructor
  · intro found
    rcases Option.ite_none_right_eq_some.mp found with ⟨begins, same⟩
    cases same
    exact (List.prefix_iff_eq_append.mp (List.isPrefixOf_iff_prefix.mp begins)).symm
  · intro same
    rw [same]
    exact afterStart?_append start rest

theorem afterStart?_eq_none_iff [BEq α] [LawfulBEq α] {start text : List α} :
    afterStart? start text = none ↔ ¬ start <+: text := by
  rw [afterStart?, ← List.isPrefixOf_iff_prefix]
  cases start.isPrefixOf text <;> simp

theorem ofMarked_eq_ok_iff_carries {text : String} {data : Bytes} :
    ofMarked text = .ok data ↔ ∃ written, text.toList = Marker.bytes.toList ++ written ∧
      Base64.Carries written data.bits := by
  simp only [← afterStart?_eq_some_iff, ← Base64.decode?_eq_some_iff, ofMarked]
  cases afterStart? Marker.bytes.toList text.toList with
  | none => simp
  | some payload => cases decoded : Base64.decode? payload <;> simp [decoded]

theorem ofMarked_eq_error_iff {text : String} {reason : DecodeError} :
    ofMarked text = .error reason ↔
      reason = .missingMarker ∧ ¬ Marker.bytes.toList <+: text.toList ∨
        reason = .invalidBase64 ∧ ∃ written, text.toList = Marker.bytes.toList ++ written ∧
          Base64.IsFaulty written := by
  simp only [← afterStart?_eq_some_iff, ← afterStart?_eq_none_iff, ← Base64.decode?_eq_none_iff,
    ofMarked]
  cases afterStart? Marker.bytes.toList text.toList with
  | none => simp [eq_comm]
  | some payload => cases decoded : Base64.decode? payload <;> simp [decoded, eq_comm]

theorem ofMarked_eq_ok_iff {text : String} {data : Bytes} :
    ofMarked text = .ok data ↔ text = data.toMarked := by
  constructor
  · intro read
    rcases ofMarked_eq_ok_iff_carries.mp read with ⟨written, begins, carries⟩
    rw [← String.toList_inj, begins, toMarked, String.toList_append, String.toList_ofList,
      Base64.eq_encode_iff_carries.mpr carries]
  · intro same
    rw [same]
    exact ofMarked_toMarked data

theorem ofJson?_string_eq_some_iff {text : String} {data : Bytes} :
    ofJson? (.string text) = some data ↔ text = data.toMarked := by
  rw [ofJson?, ← ofMarked_eq_ok_iff]
  cases ofMarked text <;> simp [Except.toOption]

theorem revive_string_eq_ofBytes_iff {text : String} {data : Bytes} :
    (Json.string text).revive = .ok (.ofBytes data) ↔ text = data.toMarked := by
  rw [Json.revive, Json.reviveString]
  split
  next =>
      rw [← ofMarked_eq_ok_iff]
      cases ofMarked text <;> simp [Except.map, Json.ofBytes_injective.eq_iff]
  next plain =>
      constructor
      · intro same
        cases same
      · intro same
        subst same
        exact absurd (by simp [Text.beginsWith, toMarked]) plain

/-- A byte string is read from one text, the marker and behind it the characters that carry its
bits. Every other text is refused: for want of the marker, or for a fault of what stands behind it.
In a document the same text stands for the byte string, whether markers are revived or not. -/
theorem has_one_text (text : String) (data : Bytes) (reason : DecodeError) :
    ofMarked data.toMarked = .ok data ∧
      (ofMarked text = .ok data ↔ text = data.toMarked) ∧
      (ofMarked text = .ok data ↔ ∃ written, text.toList = Marker.bytes.toList ++ written ∧
        Base64.Carries written data.bits) ∧
      (ofMarked text = .error reason ↔
        reason = .missingMarker ∧ ¬ Marker.bytes.toList <+: text.toList ∨
          reason = .invalidBase64 ∧ ∃ written, text.toList = Marker.bytes.toList ++ written ∧
            Base64.IsFaulty written) ∧
      (ofJson? (.string text) = some data ↔ text = data.toMarked) ∧
      ((Json.string text).revive = .ok (.ofBytes data) ↔ text = data.toMarked) :=
  ⟨ofMarked_toMarked data, ofMarked_eq_ok_iff, ofMarked_eq_ok_iff_carries, ofMarked_eq_error_iff,
    ofJson?_string_eq_some_iff, revive_string_eq_ofBytes_iff⟩

/-- A bit is set that belongs to no byte. -/
example : ofMarked "base64://AR==" = .error .invalidBase64 := by decide

end Bytes

end SealedCatalog
