import SealedCatalog.Proofs.Bytes
import SealedCatalog.Proofs.Json.Structure
import SealedCatalog.Proofs.Marker.Settling

/-! The shapes that encoders share: when the reader of a shape gets back the value that was
written. Lists and dictionaries are got back unless a marker stands where a value is meant. -/

namespace SealedCatalog

/-- A text that is a marker nowhere, neither as a value nor as a key nor at the head of a list. -/
def Marker.IsPlain (text : String) : Prop :=
  Marker.spellsBytes text = false ∧ text ≠ Marker.map

instance : DecidablePred Marker.IsPlain := fun text =>
  inferInstanceAs (Decidable (Marker.spellsBytes text = false ∧ text ≠ Marker.map))

/-- A list of texts in which no marker stands. -/
structure Marker.IsPlainList (texts : List String) : Prop where
  headed : texts.head? ≠ some Marker.map
  each : ∀ text ∈ texts, Marker.spellsBytes text = false

namespace Json

/-! Scalars -/

theorem settle_string_bind (text : String) :
    (settle (string text)).bind string? =
      if Marker.spellsBytes text then none else some text := by
  show (reviveString text).toOption.bind string? = _
  rw [reviveString, ← Marker.spellsBytes]
  split
  · cases Bytes.ofMarked text <;> rfl
  · rfl

theorem yields_string_iff {text : String} :
    Yields (string text) string? text ↔ Marker.spellsBytes text = false := by
  simp [Yields, settle_string_bind]

theorem nat?_int (limit value : Nat) :
    nat? limit (int value) = if value < limit then some value else none := rfl

theorem yields_nat_iff {limit value : Nat} :
    Yields (int value) (nat? limit) value ↔ value < limit := by
  show nat? limit (int value) = some value ↔ value < limit
  simp [nat?_int]

theorem uint8?_byte (byte : UInt8) : uint8? (int byte.toNat) = some byte := by
  have small : byte.toNat < Nat.pow 2 8 := byte.toNat_lt
  rw [uint8?, nat?_int, if_pos small, Option.map_some, UInt8.ofNat_toNat]

theorem yields_uint32 (value : UInt32) : Yields (ofUInt32 value) uint32? value := by
  have small : value.toNat < Nat.pow 2 32 := value.toNat_lt
  show uint32? (int value.toNat) = some value
  rw [uint32?, nat?_int, if_pos small, Option.map_some, UInt32.ofNat_toNat]

theorem uint32?_eq_some_iff {document : Json} {value : UInt32} :
    document.uint32? = some value ↔ document = ofUInt32 value := by
  constructor
  · intro found
    rcases Option.map_eq_some_iff.mp found with ⟨number, read, rfl⟩
    unfold nat? at read
    split at read
    · split at read
      next small =>
        cases read
        rw [ofUInt32, UInt32.toNat_ofNat_of_lt' small]
        rfl
      · cases read
    · cases read
  · intro same
    rw [same]
    exact yields_uint32 value

theorem ofUInt32_inj {left right : UInt32} : ofUInt32 left = ofUInt32 right ↔ left = right := by
  refine ⟨fun same => ?_, congrArg _⟩
  have read := uint32?_eq_some_iff.mpr same.symm
  rw [uint32?_eq_some_iff.mpr rfl] at read
  exact Option.some.inj read |>.symm

theorem yields_uint64 (value : UInt64) : Yields (ofUInt64 value) uint64? value := by
  have small : value.toNat < Nat.pow 2 64 := value.toNat_lt
  show uint64? (int value.toNat) = some value
  rw [uint64?, nat?_int, if_pos small, Option.map_some, UInt64.ofNat_toNat]

@[simp] theorem settle_null : settle null = some null := rfl

@[simp] theorem settle_bool (value : Bool) : settle (bool value) = some (bool value) := rfl

@[simp] theorem bool?_bool (value : Bool) : bool? (bool value) = some value := rfl

theorem settle_bytes (data : Bytes) : settle data.toJson = some (ofBytes data) := by
  have spelled : Text.beginsWith data.toMarked Marker.bytes = true := by
    simp [Text.beginsWith, Bytes.toMarked]
  show (reviveString data.toMarked).toOption = _
  rw [reviveString, if_pos spelled, Bytes.ofMarked_toMarked]
  rfl

/-- The list of the numbers of a byte string has no markers. -/
theorem settle_ofBytes (data : Bytes) : settle (ofBytes data) = some (ofBytes data) := by
  have canonical : (ofBytes data).canonical = ofBytes data := by
    rw [ofBytes, canonical_array, List.map_map]
    rfl
  rw [settle, canonical, revive_of_isUnmarked (isUnmarked_ofBytes data)]
  rfl

theorem ofJson?_ofBytes (data : Bytes) : Bytes.ofJson? (ofBytes data) = some data := by
  show (data.map fun byte => int byte.toNat).mapM uint8? = some data
  exact mapM_map_eq_some_iff.mpr fun byte _ => uint8?_byte byte

/-- Every byte string is got back from its marker string. -/
theorem yields_bytes (data : Bytes) : Yields data.toJson Bytes.ofJson? data :=
  yields_iff.mpr ⟨ofBytes data, settle_bytes data, ofJson?_ofBytes data⟩

theorem orNull?_eq_some_iff {value? : Json → Option α} (absent : value? null = none)
    {document : Json} {value : α} :
    orNull? value? document = some (some value) ↔ value? document = some value := by
  cases document <;> simp [orNull?, absent]

/-! Lists -/

private theorem ofRevivedItems_ne_string (items : List Json) (text : String) :
    (ofRevivedItems items).toOption ≠ some (string text) := by
  unfold ofRevivedItems
  split
  · split
    next rest _ => cases fieldsOfPairs 1 [] rest <;> simp [Except.map, Except.toOption]
    · simp [Except.toOption]
  · simp [Except.toOption]

private theorem toOption_reviveString_eq_iff {other text : String} :
    (reviveString other).toOption = some (string text) ↔
      other = text ∧ Marker.spellsBytes text = false := by
  rw [reviveString, ← Marker.spellsBytes]
  cases spelled : Marker.spellsBytes other with
  | false =>
      simp only [Bool.false_eq_true, if_false, Except.toOption, Option.some.injEq, string.injEq]
      constructor
      · rintro rfl
        exact ⟨rfl, spelled⟩
      · exact fun same => same.1
  | true =>
      rw [if_pos rfl]
      constructor
      · intro settled
        cases bytes : Bytes.ofMarked other <;> rw [bytes] at settled <;> cases settled
      · rintro ⟨rfl, plain⟩
        simp [plain] at spelled

theorem settle_eq_string_iff {document : Json} {text : String} :
    settle document = some (string text) ↔
      document = string text ∧ Marker.spellsBytes text = false := by
  cases document with
  | string other =>
      rw [string.injEq]
      exact toOption_reviveString_eq_iff
  | array items =>
      have other : settle (array items) ≠ some (string text) := by
        rw [settle_array]
        cases items.mapM settle with
        | none => simp
        | some settled => exact ofRevivedItems_ne_string settled text
      simp [other]
  | object fields =>
      have other : settle (object fields) ≠ some (string text) := by
        simp [settle_object]
      simp [other]
  | _ => simp [settle, canonical, revive, Except.toOption]

/-- A list stays one unless the map marker heads it. -/
theorem settle_array_of_head_ne {items : List Json}
    (headed : items.head? ≠ some (string Marker.map)) :
    settle (array items) = (items.mapM settle).map array := by
  rw [settle_array]
  cases found : items.mapM settle with
  | none => rfl
  | some settled =>
      have kept : settled.head? ≠ some (string Marker.map) := by
        cases mapM_eq_some_iff.mp found with
        | nil => simp
        | cons stepped _ =>
            intro same
            rw [List.head?_cons, Option.some.injEq] at same
            rw [same, settle_eq_string_iff] at stepped
            exact headed (by rw [stepped.1, List.head?_cons])
      rw [Option.bind_some, ofRevivedItems_of_head_ne kept]
      rfl

private theorem pair?_eq_none {item : Json}
    (other : ∀ name value, item ≠ array [string name, value]) : Dict.pair? some item = none := by
  unfold Dict.pair?
  split
  next name value => exact absurd rfl (other name value)
  · rfl

private theorem toOption_fieldsOfPairs (position : Nat) (inserted : List (String × Json))
    (pairs : List Json) :
    (fieldsOfPairs position inserted pairs).toOption =
      (pairs.mapM (Dict.pair? some)).map (Dict.insertFields inserted) := by
  fun_induction fieldsOfPairs position inserted pairs with
  | case1 => rfl
  | case2 position inserted value rest name induction =>
      rw [induction, List.mapM_cons]
      cases rest.mapM (Dict.pair? some) <;> rfl
  | case3 position inserted key value rest other =>
      have refused : Dict.pair? some (array [key, value]) = none := by
        apply pair?_eq_none
        intro name item same
        cases same
        exact other name rfl
      rw [List.mapM_cons, refused]
      rfl
  | case4 position inserted pair rest other =>
      have refused : Dict.pair? some (array pair) = none := by
        apply pair?_eq_none
        intro name item same
        cases same
        exact other _ item rfl
      rw [List.mapM_cons, refused]
      rfl
  | case5 position inserted item rest _ other =>
      have refused : Dict.pair? some item = none := by
        apply pair?_eq_none
        intro name value same
        exact other _ same
      rw [List.mapM_cons, refused]
      rfl

/-- A list that the map marker heads is an object or nothing. -/
theorem settle_map (items : List Json) :
    settle (array (string Marker.map :: items)) =
      (items.mapM fun item => (settle item).bind (Dict.pair? some)).map fun fields =>
        object (Dict.insertFields [] fields) := by
  have head : settle (string Marker.map) = some (string Marker.map) :=
    settle_eq_string_iff.mpr ⟨rfl, by decide⟩
  rw [settle_array, List.mapM_cons, head, ← mapM_bind_mapM]
  cases items.mapM settle with
  | none => rfl
  | some settled =>
      have pairs := toOption_fieldsOfPairs 1 [] settled
      show (ofRevivedItems (string Marker.map :: settled)).toOption = _
      rw [ofRevivedItems, if_pos rfl, Option.bind_some]
      have mapped : ∀ fields : Except DecodeError (List (String × Json)),
          (fields.map object).toOption = fields.toOption.map object := by
        intro fields
        cases fields <;> rfl
      rw [mapped, pairs, Option.map_map]
      rfl

/-- A list is got back with its items, unless the map marker heads it. -/
theorem yields_list_iff {write : α → Json} {item? : Json → Option α} {values : List α} :
    Yields (array (values.map write)) (listOf? item?) values ↔
      (values.map write).head? ≠ some (string Marker.map) ∧
        ∀ value ∈ values, Yields (write value) item? value := by
  by_cases headed : (values.map write).head? = some (string Marker.map)
  · have refused : (settle (array (values.map write))).bind (listOf? item?) = none := by
      cases found : values.map write with
      | nil => simp [found] at headed
      | cons head rest =>
          rw [found, List.head?_cons, Option.some.injEq] at headed
          rw [headed, settle_map]
          cases rest.mapM fun item => (settle item).bind (Dict.pair? some) <;> rfl
    simp [Yields, refused, headed]
  · have read : (settle (array (values.map write))).bind (listOf? item?) =
        (values.map write).mapM fun item => (settle item).bind item? := by
      rw [settle_array_of_head_ne headed, ← mapM_bind_mapM]
      cases (values.map write).mapM settle <;> rfl
    rw [Yields, read, mapM_map_eq_some_iff]
    exact ⟨fun each => ⟨headed, each⟩, fun both => both.2⟩

theorem yields_texts_iff {texts : List String} :
    Yields (array (texts.map string)) (listOf? string?) texts ↔ Marker.IsPlainList texts := by
  have head : (texts.map string).head? = some (string Marker.map) ↔
      texts.head? = some Marker.map := by
    cases texts <;> simp
  simp only [yields_list_iff, yields_string_iff, ne_eq, head]
  exact ⟨fun both => ⟨both.1, both.2⟩, fun plain => ⟨plain.headed, plain.each⟩⟩

/-! Dictionaries -/

theorem settle_pair_bind (key : String) (value : Json) :
    (settle (array [string key, value])).bind (Dict.pair? some) =
      if Marker.IsPlain key then (settle value).map (key, ·) else none := by
  by_cases headed : key = Marker.map
  · have marked : ¬ Marker.IsPlain key := fun plain => plain.2 headed
    rw [if_neg marked, headed, settle_map]
    cases [value].mapM fun item => (settle item).bind (Dict.pair? some) <;> rfl
  · have items : settle (array [string key, value]) =
        (settle (string key)).bind fun name => (settle value).map fun item =>
          array [name, item] := by
      rw [settle_array_of_head_ne (by simpa using headed)]
      simp only [List.mapM_cons, List.mapM_nil]
      cases settle (string key) with
      | none => rfl
      | some name => cases settle value <;> rfl
    rw [items]
    cases spelled : Marker.spellsBytes key with
    | false =>
        have plain : Marker.IsPlain key := ⟨spelled, headed⟩
        rw [if_pos plain, settle_eq_string_iff.mpr ⟨rfl, spelled⟩]
        cases settle value <;> rfl
    | true =>
        have marked : ¬ Marker.IsPlain key := fun plain => by simp [plain.1] at spelled
        rw [if_neg marked]
        cases found : settle (string key) with
        | none => rfl
        | some name =>
            cases settle value with
            | none => rfl
            | some item =>
                apply pair?_eq_none
                intro text other same
                cases same
                have kept := settle_eq_string_iff.mp found
                cases kept.1
                simp [kept.2] at spelled

/-- The field that the pair of a key and a value settles to. -/
private def settlePair (write : α → Json) (field : String × α) : Option (String × Json) :=
  if Marker.IsPlain field.1 then (settle (write field.2)).map (field.1, ·) else none

private theorem fst_of_settlePair {write : α → Json} (field : String × α)
    (result : String × Json) (settled : settlePair write field = some result) :
    result.1 = field.1 := by
  rw [settlePair] at settled
  split at settled
  · rcases Option.map_eq_some_iff.mp settled with ⟨value, _, same⟩
    rw [← same]
  · cases settled

private theorem fst_of_fieldValue? {value? : Json → Option α} (field : String × Json)
    (result : String × α) (read : Dict.fieldValue? value? field = some result) :
    result.1 = field.1 := by
  rcases Option.map_eq_some_iff.mp read with ⟨value, _, same⟩
  rw [← same]

/-- Lists with the same keys ascend together. -/
private theorem ascending_of_keys {fields : List (String × α)} {others : List (String × β)}
    (keys : fields.map Prod.fst = others.map Prod.fst)
    (ascending : others.Pairwise fun left right => left.1 < right.1) :
    fields.Pairwise fun left right => left.1 < right.1 := by
  have moved := List.pairwise_map.mpr ascending
  rw [← keys] at moved
  exact List.pairwise_map.mp moved

private theorem settle_dict (write : α → Json) (dict : Dict α) :
    settle (dict.toJson write) = (dict.toList.mapM (settlePair write)).map object := by
  have pairs : (dict.toList.map fun field => array [string field.1, write field.2]).mapM
      (fun item => (settle item).bind (Dict.pair? some)) = dict.toList.mapM (settlePair write) := by
    rw [List.mapM_map]
    congr 1
    funext field
    exact settle_pair_bind field.1 (write field.2)
  rw [Dict.toJson, settle_map, pairs]
  cases found : dict.toList.mapM (settlePair write) with
  | none => rfl
  | some fields =>
      have ascending := ascending_of_keys (map_eq_of_mapM fst_of_settlePair found) dict.ascending
      rw [Option.map_some, Option.map_some, Dict.insertFields_eq_append (by simpa using ascending)]
      rfl

/-- A dictionary is got back with its values, unless a marker stands where a key is meant. -/
theorem yields_dict_iff {write : α → Json} {value? : Json → Option α} {dict : Dict α} :
    Yields (dict.toJson write) (Dict.ofJson? value?) dict ↔
      ∀ field ∈ dict.toList, Marker.IsPlain field.1 ∧ Yields (write field.2) value? field.2 := by
  let step (field : String × α) : Option (String × α) :=
    (settlePair write field).bind (Dict.fieldValue? value?)
  have read : (settle (dict.toJson write)).bind (Dict.ofJson? value?) =
      (dict.toList.mapM step).map Dict.ofList := by
    rw [settle_dict, ← mapM_bind_mapM]
    cases dict.toList.mapM (settlePair write) <;> rfl
  have keeps : ∀ field result, step field = some result → result.1 = field.1 := by
    intro field result stepped
    rcases Option.bind_eq_some_iff.mp stepped with ⟨between, settled, got⟩
    rw [fst_of_fieldValue? between result got, fst_of_settlePair field between settled]
  have whole : (dict.toList.mapM step).map Dict.ofList = some dict ↔
      dict.toList.mapM step = some dict.toList := by
    constructor
    · intro same
      rcases Option.map_eq_some_iff.mp same with ⟨fields, found, ofFields⟩
      have ascending := ascending_of_keys (map_eq_of_mapM keeps found) dict.ascending
      rw [found, ← ofFields, Dict.toList_ofList,
        Dict.insertFields_eq_append (by simpa using ascending), List.nil_append]
    · intro same
      rw [same, Option.map_some, Dict.ofList_toList]
  have each : ∀ field : String × α, step field = some field ↔
      Marker.IsPlain field.1 ∧ Yields (write field.2) value? field.2 := by
    intro field
    by_cases plain : Marker.IsPlain field.1
    · simp only [step, settlePair, plain, if_true, true_and, Yields]
      cases settle (write field.2) with
      | none => simp
      | some settled => simp [Dict.fieldValue?, Prod.ext_iff]
    · simp [step, settlePair, plain]
  rw [Yields, read, whole, mapM_eq_some_iff, List.forall₂_same]
  exact forall₂_congr fun field _ => each field

end Json

theorem Bytes.fits_toJson (limit : Nat) (data : Bytes) : Json.Fits limit data.toJson :=
  Json.fits_string limit _

theorem Dict.fits_toJson {write : α → Json} {dict : Dict α} {limit : Nat}
    (each : ∀ field ∈ dict.toList, Json.Fits limit (write field.2)) :
    Json.Fits (limit + 2) (dict.toJson write) := by
  rw [toJson, Json.fits_array_iff]
  intro item member
  rcases List.mem_cons.mp member with same | later
  · exact same ▸ Json.fits_string _ _
  · rcases List.mem_map.mp later with ⟨field, fieldMember, rfl⟩
    rw [Json.fits_array_iff]
    simpa using each field fieldMember

end SealedCatalog
