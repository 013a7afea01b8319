import SealedCatalog.Proofs.Dict
import SealedCatalog.Proofs.Marker.Yielding

/-! Maps in their two spellings, an object and an array headed by the map marker. Both settle to the
same object, and with or without revival a reader of dictionaries gets the same out of both, in
which the last of repeated keys counts. -/

namespace SealedCatalog

namespace Json

/-- The reader gets the value out of the document, with its markers revived and as it stands. -/
structure Gives (document : Json) (read : Json → Option α) (value : α) : Prop where
  revived : Yields document read value
  plain : read document = some value

/-- The array of the fields of a map, headed by the map marker. -/
def ofFields (fields : List (String × Json)) : Json :=
  array (string Marker.map :: fields.map fun field => array [string field.1, field.2])

/-- Of repeated keys the last counts, also before the values are settled. -/
theorem settle_object_eq {fields settled : List (String × Json)}
    (each : fields.mapM settleField = some settled) :
    settle (object fields) = some (object (Dict.insertFields [] settled)) := by
  have keys : ∀ field other : String × Json, reviveField field = some other →
      field.1 = other.1 := by
    intro field other revived
    rcases Option.map_eq_some_iff.mp revived with ⟨value, _, rfl⟩
    rfl
  have inPlace : List.Forall₂ (fun field other => reviveField field = some other)
      (fields.map canonicalField) settled :=
    List.forall₂_map_left_iff.mpr (mapM_eq_some_iff.mp each)
  have inOrder := mapM_eq_some_iff.mpr (Dict.forall₂_insertFields keys .nil inPlace)
  rw [settle_object, inOrder, Option.map_some]

theorem settle_ofFields {fields settled : List (String × Json)}
    (plain : ∀ field ∈ fields, Marker.IsPlain field.1)
    (each : fields.mapM settleField = some settled) :
    settle (ofFields fields) = some (object (Dict.insertFields [] settled)) := by
  have pairs : (fields.map fun field => array [string field.1, field.2]).mapM
      (fun item => (settle item).bind (Dict.pair? some)) = some settled := by
    have both := (List.forall₂_and_left _ _).mpr ⟨plain, mapM_eq_some_iff.mp each⟩
    refine mapM_eq_some_iff.mpr (List.forall₂_map_left_iff.mpr ?_)
    refine both.imp fun field other same => ?_
    rw [settle_pair_bind, if_pos same.1]
    exact same.2
  rw [ofFields, settle_map, pairs, Option.map_some]

end Json

namespace Dict

variable {α : Type} {spells : Json → α → Prop} {value? : Json → Option α}

/-- The fields spell the pairs, each the one in its place. -/
def FieldsSpell (spells : Json → α → Prop) (fields : List (String × Json))
    (pairs : List (String × α)) : Prop :=
  List.Forall₂ (fun field pair => field.1 = pair.1 ∧ spells field.2 pair.2) fields pairs

/-- The spellings of a list of pairs, in which keys may be repeated. In an array a key is a string
like any other, and must not be taken for a marker. -/
inductive Spells (spells : Json → α → Prop) : Json → List (String × α) → Prop where
  | object {fields : List (String × Json)} {pairs : List (String × α)}
      (each : FieldsSpell spells fields pairs) : Spells spells (.object fields) pairs
  | marked {fields : List (String × Json)} {pairs : List (String × α)}
      (each : FieldsSpell spells fields pairs)
      (plain : ∀ field ∈ fields, Marker.IsPlain field.1) :
      Spells spells (Json.ofFields fields) pairs

theorem ofJson?_object {fields : List (String × Json)} {pairs : List (String × α)}
    (each : fields.mapM (fieldValue? value?) = some pairs) :
    ofJson? value? (.object fields) = some (ofList pairs) := by
  rw [ofJson?, each, Option.map_some]

theorem ofJson?_ofFields {fields : List (String × Json)} {pairs : List (String × α)}
    (each : fields.mapM (fieldValue? value?) = some pairs) :
    ofJson? value? (Json.ofFields fields) = some (ofList pairs) := by
  have same : (fields.map fun field => Json.array [.string field.1, field.2]).mapM
      (pair? value?) = some pairs := by
    rw [← each, List.mapM_map]
    rfl
  rw [Json.ofFields, ofJson?, if_pos rfl, same, Option.map_some]

/-- Fields that are put in order are read as they would be in their places. -/
theorem ofJson?_insertFields {fields : List (String × Json)} {pairs : List (String × α)}
    (each : fields.mapM (fieldValue? value?) = some pairs) :
    ofJson? value? (.object (insertFields [] fields)) = some (ofList pairs) := by
  have keys : ∀ field pair, fieldValue? value? field = some pair → field.1 = pair.1 := by
    intro field pair read
    rcases Option.map_eq_some_iff.mp read with ⟨value, _, rfl⟩
    rfl
  have inOrder := mapM_eq_some_iff.mpr
    (forall₂_insertFields keys .nil (mapM_eq_some_iff.mp each))
  rw [ofJson?_object inOrder, ← toList_ofList, ofList_toList]

section Values

variable (each : ∀ document value, spells document value → Json.Gives document value? value)

include each

theorem FieldsSpell.plain {fields : List (String × Json)} {pairs : List (String × α)}
    (fieldsSpell : FieldsSpell spells fields pairs) :
    fields.mapM (fieldValue? value?) = some pairs := by
  refine mapM_eq_some_iff.mpr (fieldsSpell.imp fun field pair same => ?_)
  rcases pair with ⟨key, value⟩
  rw [fieldValue?, (each field.2 value same.2).plain, same.1, Option.map_some]

theorem FieldsSpell.revived {fields : List (String × Json)} {pairs : List (String × α)}
    (fieldsSpell : FieldsSpell spells fields pairs) :
    ∃ settled, fields.mapM Json.settleField = some settled ∧
      settled.mapM (fieldValue? value?) = some pairs := by
  have both : (fields.mapM Json.settleField).bind (List.mapM (fieldValue? value?)) =
      some pairs := by
    rw [mapM_bind_mapM]
    refine mapM_eq_some_iff.mpr (fieldsSpell.imp fun field pair same => ?_)
    rcases pair with ⟨key, value⟩
    rcases Json.yields_iff.mp (each field.2 value same.2).revived with ⟨settled, found, read⟩
    rw [Json.settleField, found, Option.map_some, Option.bind_some, fieldValue?, read, same.1,
      Option.map_some]
  exact Option.bind_eq_some_iff.mp both

/-- Every spelling of the pairs gives the dictionary of the pairs. -/
theorem Spells.gives {document : Json} {pairs : List (String × α)}
    (spelled : Spells spells document pairs) :
    Json.Gives document (ofJson? value?) (ofList pairs) := by
  cases spelled with
  | object fieldsSpell =>
      rcases fieldsSpell.revived each with ⟨settled, found, read⟩
      refine ⟨Json.yields_iff.mpr ⟨_, Json.settle_object_eq found, ?_⟩, ?_⟩
      · exact ofJson?_insertFields read
      · exact ofJson?_object (fieldsSpell.plain each)
  | marked fieldsSpell plain =>
      rcases fieldsSpell.revived each with ⟨settled, found, read⟩
      refine ⟨Json.yields_iff.mpr ⟨_, Json.settle_ofFields plain found, ?_⟩, ?_⟩
      · exact ofJson?_insertFields read
      · exact ofJson?_ofFields (fieldsSpell.plain each)

end Values

end Dict

end SealedCatalog
