import SealedCatalog.Marker.Revival
import SealedCatalog.Proofs.Json.Canonical
import SealedCatalog.Proofs.Traversal

/-! Documents without markers: revival gives such a document, and changes none that is one. -/

namespace SealedCatalog

/-- Whether revival takes a text for bytes. -/
def Marker.spellsBytes (text : String) : Bool :=
  Text.beginsWith text Marker.bytes

namespace Json

/-- No string of the document spells bytes, and none of its arrays is headed by the map marker. -/
inductive IsUnmarked : Json → Prop where
  | null : IsUnmarked null
  | bool (value : Bool) : IsUnmarked (bool value)
  | int (value : Int) : IsUnmarked (int value)
  | float (value : Number.Binary64) : IsUnmarked (float value)
  | string {value : String} (plain : Marker.spellsBytes value = false) :
      IsUnmarked (string value)
  | array {items : List Json} (headed : items.head? ≠ some (.string Marker.map))
      (each : ∀ item ∈ items, IsUnmarked item) : IsUnmarked (array items)
  | object {fields : List (String × Json)} (each : ∀ field ∈ fields, IsUnmarked field.2) :
      IsUnmarked (object fields)

theorem ofRevivedItems_of_head_ne {items : List Json}
    (headed : items.head? ≠ some (string Marker.map)) :
    ofRevivedItems items = .ok (array items) := by
  unfold ofRevivedItems
  split
  next head rest =>
    have different : head ≠ Marker.map := by simpa using headed
    rw [if_neg different]
  · rfl

private theorem reviveItems_of_each {items : List Json}
    (each : ∀ item ∈ items, revive item = .ok item) : reviveItems items = .ok items := by
  induction items with
  | nil => rfl
  | cons item rest induction =>
      have ⟨first, others⟩ := List.forall_mem_cons.mp each
      rw [reviveItems, first, induction others]
      rfl

private theorem reviveFields_of_each {fields : List (String × Json)}
    (each : ∀ field ∈ fields, revive field.2 = .ok field.2) :
    reviveFields fields = .ok fields := by
  induction fields with
  | nil => rfl
  | cons field rest induction =>
      have ⟨first, others⟩ := List.forall_mem_cons.mp each
      rw [reviveFields, first, induction others]
      rfl

/-- Revival changes nothing where there are no markers. -/
theorem revive_of_isUnmarked {document : Json} (unmarked : IsUnmarked document) :
    document.revive = .ok document := by
  induction unmarked with
  | null | bool | int | float => rfl
  | string plain => rw [revive, reviveString, ← Marker.spellsBytes, plain]; rfl
  | array headed _ induction =>
      rw [revive, reviveItems_of_each induction]
      exact ofRevivedItems_of_head_ne headed
  | object _ induction =>
      rw [revive, reviveFields_of_each induction]
      rfl

theorem isUnmarked_ofBytes (data : Bytes) : IsUnmarked (ofBytes data) := by
  refine .array ?_ ?_
  · cases data <;> simp
  · intro item member
    rcases List.mem_map.mp member with ⟨byte, _, rfl⟩
    exact .int _

/-- Every field that the pairs of a map denote is one of the pairs. -/
theorem mem_of_fieldsOfPairs {pairs : List Json} {position : Nat}
    {inserted fields : List (String × Json)}
    (found : fieldsOfPairs position inserted pairs = .ok fields) :
    ∀ field ∈ fields, field ∈ inserted ∨ array [string field.1, field.2] ∈ pairs := by
  fun_induction fieldsOfPairs position inserted pairs with
  | case1 =>
      cases found
      exact fun field member => .inl member
  | case2 position inserted value rest name induction =>
      intro field member
      rcases induction found field member with earlier | later
      · rcases Dict.mem_insertField earlier with rfl | before
        · exact .inr List.mem_cons_self
        · exact .inl before
      · exact .inr (List.mem_cons_of_mem _ later)
  | case3 | case4 | case5 => simp at found

/-- An array whose items are revived stays one, or else the map marker heads it and it becomes an
object of its pairs. -/
theorem ofRevivedItems_cases {items : List Json} {document : Json}
    (found : ofRevivedItems items = .ok document) :
    (items.head? ≠ some (string Marker.map) ∧ document = array items) ∨
      ∃ fields, document = object fields ∧
        ∀ field ∈ fields, array [string field.1, field.2] ∈ items := by
  by_cases headed : items.head? = some (string Marker.map)
  · obtain ⟨rest, rfl⟩ : ∃ rest, items = string Marker.map :: rest := by
      cases items with
      | nil => simp at headed
      | cons head rest => exact ⟨rest, by simpa using headed⟩
    simp only [ofRevivedItems, if_true] at found
    cases fields : fieldsOfPairs 1 [] rest with
    | error reason => simp [fields, Except.map] at found
    | ok inserted =>
        rw [fields] at found
        cases found
        refine .inr ⟨inserted, rfl, fun field member => ?_⟩
        have pair := (mem_of_fieldsOfPairs fields field member).resolve_left (by simp)
        exact List.mem_cons_of_mem _ pair
  · rw [ofRevivedItems_of_head_ne headed] at found
    cases found
    exact .inl ⟨headed, rfl⟩

private theorem isUnmarked_ofRevivedItems {items : List Json} {document : Json}
    (found : ofRevivedItems items = .ok document) (each : ∀ item ∈ items, IsUnmarked item) :
    IsUnmarked document := by
  rcases ofRevivedItems_cases found with ⟨headed, rfl⟩ | ⟨fields, rfl, pairs⟩
  · exact .array headed each
  · refine .object fun field member => ?_
    cases each _ (pairs field member) with
    | array _ parts => exact parts field.2 (by simp)

theorem toOption_reviveItems (items : List Json) :
    (reviveItems items).toOption = items.mapM fun item => item.revive.toOption := by
  induction items with
  | nil => rfl
  | cons item rest induction =>
      rw [reviveItems, List.mapM_cons, ← induction]
      cases revive item with
      | error reason => rfl
      | ok head => cases reviveItems rest <;> rfl

/-- A field with its value revived. -/
def reviveField (field : String × Json) : Option (String × Json) :=
  field.2.revive.toOption.map (field.1, ·)

theorem toOption_reviveFields (fields : List (String × Json)) :
    (reviveFields fields).toOption = fields.mapM reviveField := by
  induction fields with
  | nil => rfl
  | cons field rest induction =>
      rw [reviveFields, List.mapM_cons, ← induction, reviveField]
      cases revive field.2 with
      | error reason => rfl
      | ok head => cases reviveFields rest <;> rfl

theorem revive_eq_ok {document revived : Json}
    (succeeded : document.revive.toOption = some revived) : document.revive = .ok revived := by
  cases found : document.revive with
  | error reason => simp [found, Except.toOption] at succeeded
  | ok other => simpa [found, Except.toOption] using succeeded

theorem revive_string_cases {text : String} {revived : Json}
    (found : (string text).revive = .ok revived) :
    (Marker.spellsBytes text = true ∧ ∃ data, revived = ofBytes data) ∨
      (Marker.spellsBytes text = false ∧ revived = string text) := by
  rw [revive, reviveString, ← Marker.spellsBytes] at found
  split at found
  next spelled =>
    cases data : Bytes.ofMarked text with
    | error reason => simp [data, Except.map] at found
    | ok bytes =>
        rw [data] at found
        cases found
        exact .inl ⟨spelled, bytes, rfl⟩
  next plain =>
    cases found
    exact .inr ⟨Bool.not_eq_true _ ▸ plain, rfl⟩

theorem exists_revivedItems {items : List Json} {revived : Json}
    (found : (array items).revive = .ok revived) :
    ∃ settled, items.mapM (fun item => item.revive.toOption) = some settled ∧
      ofRevivedItems settled = .ok revived := by
  rw [← toOption_reviveItems]
  cases inside : reviveItems items with
  | error reason => simp [revive, inside, bind, Except.bind] at found
  | ok settled =>
      simp only [revive, inside] at found
      exact ⟨settled, rfl, found⟩

theorem exists_revivedFields {fields : List (String × Json)} {revived : Json}
    (found : (object fields).revive = .ok revived) :
    ∃ settled, fields.mapM reviveField = some settled ∧ revived = object settled := by
  rw [← toOption_reviveFields]
  cases inside : reviveFields fields with
  | error reason => simp [revive, inside, bind, Except.bind] at found
  | ok settled =>
      simp only [revive, inside] at found
      cases found
      exact ⟨settled, rfl, rfl⟩

theorem exists_of_mem_revivedItems {items settled : List Json}
    (all : items.mapM (fun item => item.revive.toOption) = some settled) {result : Json}
    (member : result ∈ settled) : ∃ item ∈ items, item.revive = .ok result := by
  rcases exists_of_mem_mapM all member with ⟨item, itemMember, same⟩
  exact ⟨item, itemMember, revive_eq_ok same⟩

theorem exists_of_mem_revivedFields {fields settled : List (String × Json)}
    (all : fields.mapM reviveField = some settled) {result : String × Json}
    (member : result ∈ settled) :
    ∃ field ∈ fields, field.1 = result.1 ∧ field.2.revive = .ok result.2 := by
  rcases exists_of_mem_mapM all member with ⟨field, fieldMember, same⟩
  rcases Option.map_eq_some_iff.mp same with ⟨value, revivedValue, rfl⟩
  exact ⟨field, fieldMember, rfl, revive_eq_ok revivedValue⟩

/-- Revival leaves no marker at any depth. -/
theorem isUnmarked_of_revive {document revived : Json} (found : document.revive = .ok revived) :
    IsUnmarked revived := by
  induction document generalizing revived with
  | null => cases found; exact .null
  | bool value => cases found; exact .bool value
  | int value => cases found; exact .int value
  | float value => cases found; exact .float value
  | string text =>
      rcases revive_string_cases found with ⟨_, data, rfl⟩ | ⟨plain, rfl⟩
      · exact isUnmarked_ofBytes data
      · exact .string plain
  | array items induction =>
      rcases exists_revivedItems found with ⟨settled, all, outer⟩
      apply isUnmarked_ofRevivedItems outer
      intro result member
      rcases exists_of_mem_revivedItems all member with ⟨item, itemMember, inner⟩
      exact induction item itemMember inner
  | object fields induction =>
      rcases exists_revivedFields found with ⟨settled, all, rfl⟩
      refine .object fun result member => ?_
      rcases exists_of_mem_revivedFields all member with ⟨field, fieldMember, _, inner⟩
      exact induction field fieldMember inner

theorem canonical_eq_string_iff {document : Json} {text : String} :
    document.canonical = string text ↔ document = string text := by
  cases document <;> simp [canonical]

theorem head?_map_canonical {items : List Json} :
    (items.map canonical).head? = some (string Marker.map) ↔
      items.head? = some (string Marker.map) := by
  cases items with
  | nil => simp
  | cons item rest => simp [canonical_eq_string_iff]

theorem isUnmarked_canonical {document : Json} (unmarked : IsUnmarked document) :
    IsUnmarked document.canonical := by
  induction unmarked with
  | null => exact .null
  | bool value => exact .bool value
  | int value => exact .int value
  | float value => exact .float value
  | string plain => exact .string plain
  | @array items headed _ induction =>
      rw [canonical_array]
      refine .array (fun head => headed (head?_map_canonical.mp head)) fun item member => ?_
      rcases List.mem_map.mp member with ⟨original, originalMember, rfl⟩
      exact induction original originalMember
  | @object fields _ induction =>
      rw [canonical_object]
      exact .object (forall_mem_canonical induction)

end Json

end SealedCatalog
