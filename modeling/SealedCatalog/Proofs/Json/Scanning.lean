import SealedCatalog.Proofs.Json.Structure

/-! The text of a document is scanned into the tokens of the document that is read from it. -/

namespace SealedCatalog.Json

mutual

def tokens : Json → List Token
  | null => [.null]
  | bool value => [.bool value]
  | int value => [.number (int value)]
  | float value => [.number (float (rereadNumber value))]
  | string value => [.string value]
  | array items => .beginArray :: (itemTokens items ++ [.endArray])
  | object fields => .beginObject :: (fieldTokens fields ++ [.endObject])

def itemTokens : List Json → List Token
  | [] => []
  | item :: rest => tokens item ++ moreItemTokens rest

def moreItemTokens : List Json → List Token
  | [] => []
  | item :: rest => .comma :: (tokens item ++ moreItemTokens rest)

def fieldTokens : List (String × Json) → List Token
  | [] => []
  | (key, value) :: rest => .string key :: .colon :: (tokens value ++ moreFieldTokens rest)

def moreFieldTokens : List (String × Json) → List Token
  | [] => []
  | (key, value) :: rest =>
      .comma :: .string key :: .colon :: (tokens value ++ moreFieldTokens rest)

end

namespace Token

theorem hexValue?_hexDigit : ∀ value < 16, hexValue? (hexDigit value) = some value := by
  decide

/-- A written character is read back. -/
theorem scanChar_writeChar (char : Char) (rest : List Char) :
    scanChar (writeChar char ++ rest) = some (char, rest) := by
  rw [writeChar]
  split
  case isTrue same => subst same; rfl
  split
  case isTrue same => subst same; rfl
  split
  case isTrue same => subst same; rfl
  split
  case isTrue same => subst same; rfl
  split
  case isTrue same => subst same; rfl
  split
  case isTrue same => subst same; rfl
  split
  case isTrue same => subst same; rfl
  split
  case isTrue control =>
    have high := hexValue?_hexDigit (char.toNat / 16) (by omega)
    have low := hexValue?_hexDigit (char.toNat % 16) (by omega)
    have zero : hexValue? '0' = some 0 := rfl
    have whole : char.toNat / 16 * 16 + char.toNat % 16 = char.toNat := by omega
    have notTrailing : isTrailing char.toNat = false := by
      simp only [isTrailing, Bool.and_eq_false_iff, decide_eq_false_iff_not]
      omega
    have notLeading : isLeading char.toNat = false := by
      simp only [isLeading, Bool.and_eq_false_iff, decide_eq_false_iff_not]
      omega
    simp [scanChar, scanUnit, hexUnit?, high, low, zero, whole, notTrailing, notLeading,
      Char.ofNat_toNat]
  case isFalse notQuote notBackslash _ _ _ _ _ notControl =>
    simp only [List.singleton_append]
    unfold scanChar
    split <;> simp_all

private theorem exists_writeChar (char : Char) :
    ∃ head tail, writeChar char = head :: tail ∧ head ≠ '"' := by
  rw [writeChar]
  repeat' split
  all_goals simp_all

theorem scanString_of_scanChar {gathered input rest : List Char} {char : Char}
    (within : ∀ after, input ≠ '"' :: after) (scanned : scanChar input = some (char, rest)) :
    scanString gathered input = scanString (char :: gathered) rest := by
  rw [scanString]
  · split
    next failed => simp [scanned] at failed
    next found =>
      obtain ⟨rfl, rfl⟩ : char = _ ∧ rest = _ := by simpa [scanned] using found
      rfl
  · exact within

theorem scanString_flatMap (chars gathered rest : List Char) :
    scanString gathered (chars.flatMap writeChar ++ '"' :: rest) =
      some (gathered.reverse ++ chars, rest) := by
  induction chars generalizing gathered with
  | nil => simp [scanString]
  | cons char chars induction =>
      rcases exists_writeChar char with ⟨head, tail, written, notQuote⟩
      have within : ∀ after,
          writeChar char ++ (chars.flatMap writeChar ++ '"' :: rest) ≠ '"' :: after := by
        simp [written, notQuote]
      rw [List.flatMap_cons, List.append_assoc,
        scanString_of_scanChar within (scanChar_writeChar char _), induction]
      simp

theorem scan_writeString (text : String) (rest : List Char) :
    scan (writeString text ++ rest) = some (string text, rest) := by
  simp [writeString, scan, scanString_flatMap]

private theorem exists_writeInt (value : Int) :
    ∃ head tail, writeInt value = head :: tail ∧ (head.isDigit = true ∨ head = '-') := by
  cases value with
  | ofNat magnitude =>
      cases written : Nat.toDigits 10 magnitude with
      | nil => exact absurd written Nat.toDigits_ne_nil
      | cons head tail =>
          have digit : head.isDigit = true := Nat.isDigit_of_mem_toDigits (n := magnitude)
            (by decide) (by decide) (written ▸ List.mem_cons_self)
          exact ⟨head, tail, written, .inl digit⟩
  | negSucc predecessor => exact ⟨'-', _, rfl, .inr rfl⟩

theorem scanAll_of_scan (gathered : List Token) (char : Char) (rest : List Char)
    {after : List Char} {token : Token} (solid : isBlank char = false)
    (scanned : scan (char :: rest) = some (token, after)) :
    scanAll gathered (char :: rest) = scanAll (token :: gathered) after := by
  rw [scanAll]
  simp only [solid, Bool.false_eq_true, if_false]
  split <;> simp_all

theorem scanAll_writeString (gathered : List Token) (text : String) (rest : List Char) :
    scanAll gathered (writeString text ++ rest) = scanAll (string text :: gathered) rest :=
  scanAll_of_scan _ _ _ rfl (scan_writeString text rest)

/-- A text that begins like a numeral and is read as one is the token of its value. -/
private theorem scanAll_numeral (gathered : List Token) {text rest : List Char} {value : Json}
    (leads : ∃ head tail, text = head :: tail ∧ (head.isDigit = true ∨ head = '-'))
    (read : (Numeral.scan (text ++ rest)).bind
      (fun (numeral, rest) => numeral.value?.map fun read => (number read, rest)) =
      some (number value, rest)) :
    scanAll gathered (text ++ rest) = scanAll (number value :: gathered) rest := by
  rcases leads with ⟨head, tail, rfl, leads⟩
  have solid : isBlank head = false := by
    rcases leads with digit | rfl
    · cases blank : isBlank head with
      | false => rfl
      | true =>
          simp only [isBlank, Bool.or_eq_true, decide_eq_true_eq] at blank
          rcases blank with ((rfl | rfl) | rfl) | rfl <;> exact absurd digit (by decide)
    · rfl
  have scanned : scan (head :: (tail ++ rest)) = some (number value, rest) := by
    rw [← read]
    unfold scan
    split
    case h_11 => rfl
    all_goals simp_all
  exact scanAll_of_scan _ _ _ solid scanned

theorem scanAll_writeInt (gathered : List Token) {value : Int} (storable : IsStorable value)
    {rest : List Char} (ends : EndsNumeral rest) :
    scanAll gathered (writeInt value ++ rest) =
      scanAll (number (int value) :: gathered) rest :=
  scanAll_numeral gathered (exists_writeInt value) (scan_writeInt storable ends)

theorem scanAll_writeNumber (gathered : List Token) {value : Number.Binary64}
    (finite : value.isFinite = true) {rest : List Char} (ends : EndsNumeral rest) :
    scanAll gathered (value.write .plain ++ rest) =
      scanAll (number (float (rereadNumber value)) :: gathered) rest :=
  scanAll_numeral gathered (exists_writeNumber_eq value) (scan_writeNumber finite ends)

end Token

/-- After a written value, the scanner stands where it would stand after the value's tokens. -/
def Scans (document : Json) : Prop :=
  ∀ (gathered : List Token) {rest : List Char}, EndsNumeral rest →
    Token.scanAll gathered (write document ++ rest) =
      Token.scanAll ((tokens document).reverse ++ gathered) rest

theorem endsNumeral_comma (rest : List Char) : EndsNumeral (',' :: rest) := by
  simp [EndsNumeral]

theorem endsNumeral_bracket (rest : List Char) : EndsNumeral (']' :: rest) := by
  simp [EndsNumeral]

theorem endsNumeral_brace (rest : List Char) : EndsNumeral ('}' :: rest) := by
  simp [EndsNumeral]

private theorem endsNumeral_moreItems (items : List Json) (rest : List Char) :
    EndsNumeral (writeMoreItems items ++ ']' :: rest) := by
  cases items with
  | nil => exact endsNumeral_bracket rest
  | cons item items => exact endsNumeral_comma _

private theorem endsNumeral_moreFields (fields : List (String × Json)) (rest : List Char) :
    EndsNumeral (writeMoreFields fields ++ '}' :: rest) := by
  cases fields with
  | nil => exact endsNumeral_brace rest
  | cons field fields => exact endsNumeral_comma _

private theorem scanAll_moreItems {items : List Json} (each : ∀ item ∈ items, Scans item)
    (gathered : List Token) (rest : List Char) :
    Token.scanAll gathered (writeMoreItems items ++ ']' :: rest) =
      Token.scanAll (.endArray :: ((moreItemTokens items).reverse ++ gathered)) rest := by
  induction items generalizing gathered with
  | nil => exact Token.scanAll_of_scan _ _ _ rfl rfl
  | cons item items induction =>
      have ⟨first, others⟩ := List.forall_mem_cons.mp each
      have comma := Token.scanAll_of_scan gathered ','
        (write item ++ (writeMoreItems items ++ ']' :: rest)) rfl rfl
      simp only [writeMoreItems, List.cons_append, List.append_assoc]
      rw [comma, first _ (endsNumeral_moreItems items rest), induction others]
      simp [moreItemTokens]

private theorem scanAll_items {items : List Json} (each : ∀ item ∈ items, Scans item)
    (gathered : List Token) (rest : List Char) :
    Token.scanAll gathered (writeItems items ++ ']' :: rest) =
      Token.scanAll (.endArray :: ((itemTokens items).reverse ++ gathered)) rest := by
  cases items with
  | nil => exact Token.scanAll_of_scan _ _ _ rfl rfl
  | cons item items =>
      have ⟨first, others⟩ := List.forall_mem_cons.mp each
      rw [writeItems, List.append_assoc, first _ (endsNumeral_moreItems items rest),
        scanAll_moreItems others]
      simp [itemTokens]

private theorem scanAll_field {value : Json} (scans : Scans value) (key : String)
    (gathered : List Token) {rest : List Char} (ends : EndsNumeral rest) :
    Token.scanAll gathered (writeString key ++ ':' :: (write value ++ rest)) =
      Token.scanAll ((tokens value).reverse ++ .colon :: .string key :: gathered) rest := by
  have colon := Token.scanAll_of_scan (.string key :: gathered) ':' (write value ++ rest)
    rfl rfl
  rw [Token.scanAll_writeString, colon, scans _ ends]

private theorem scanAll_moreFields {fields : List (String × Json)}
    (each : ∀ field ∈ fields, Scans field.2) (gathered : List Token) (rest : List Char) :
    Token.scanAll gathered (writeMoreFields fields ++ '}' :: rest) =
      Token.scanAll (.endObject :: ((moreFieldTokens fields).reverse ++ gathered)) rest := by
  induction fields generalizing gathered with
  | nil => exact Token.scanAll_of_scan _ _ _ rfl rfl
  | cons field fields induction =>
      rcases field with ⟨key, value⟩
      have ⟨first, others⟩ := List.forall_mem_cons.mp each
      have comma := Token.scanAll_of_scan gathered ','
        (writeString key ++ ':' :: (write value ++ (writeMoreFields fields ++ '}' :: rest)))
        rfl rfl
      simp only [writeMoreFields, List.cons_append, List.append_assoc]
      rw [comma, scanAll_field first key _ (endsNumeral_moreFields fields rest),
        induction others]
      simp [moreFieldTokens]

private theorem scanAll_fields {fields : List (String × Json)}
    (each : ∀ field ∈ fields, Scans field.2) (gathered : List Token) (rest : List Char) :
    Token.scanAll gathered (writeFields fields ++ '}' :: rest) =
      Token.scanAll (.endObject :: ((fieldTokens fields).reverse ++ gathered)) rest := by
  cases fields with
  | nil => exact Token.scanAll_of_scan _ _ _ rfl rfl
  | cons field fields =>
      rcases field with ⟨key, value⟩
      have ⟨first, others⟩ := List.forall_mem_cons.mp each
      simp only [writeFields, List.cons_append, List.append_assoc]
      rw [scanAll_field first key _ (endsNumeral_moreFields fields rest),
        scanAll_moreFields others]
      simp [fieldTokens]

theorem scans_of_isWritable {document : Json} (writable : IsWritable document) :
    Scans document := by
  intro gathered rest ends
  induction writable generalizing gathered rest with
  | null => exact Token.scanAll_of_scan _ _ _ rfl rfl
  | bool value => cases value <;> exact Token.scanAll_of_scan _ _ _ rfl rfl
  | int storable => exact Token.scanAll_writeInt gathered storable ends
  | float finite => exact Token.scanAll_writeNumber gathered finite ends
  | string value => exact Token.scanAll_writeString gathered value rest
  | @array items _ induction =>
      have opened := Token.scanAll_of_scan gathered '[' (writeItems items ++ ']' :: rest)
        rfl rfl
      have inside := scanAll_items (fun item member gathered _ => induction item member gathered)
        (.beginArray :: gathered) rest
      simp only [write, List.cons_append, List.append_assoc, List.nil_append]
      rw [opened, inside]
      simp [tokens]
  | @object fields _ induction =>
      have opened := Token.scanAll_of_scan gathered '{' (writeFields fields ++ '}' :: rest)
        rfl rfl
      have inside := scanAll_fields (fun field member gathered _ => induction field member gathered)
        (.beginObject :: gathered) rest
      simp only [write, List.cons_append, List.append_assoc, List.nil_append]
      rw [opened, inside]
      simp [tokens]

/-- The tokens of a document are read off its text. -/
theorem scanAll_write {document : Json} (writable : IsWritable document) :
    Token.scanAll [] (write document) = some (tokens document) := by
  have ends : EndsNumeral [] := by simp [EndsNumeral]
  simpa [Token.scanAll] using scans_of_isWritable writable [] ends

end SealedCatalog.Json
