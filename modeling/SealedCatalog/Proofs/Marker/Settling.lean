import SealedCatalog.Codable
import SealedCatalog.Proofs.Marker.Unmarked

/-! What decoding makes of an encoded value. Its document takes canonical form, the markers are
revived, and a reader takes the result apart. For each shape that encoders use it is stated when
the reader gets the value back. -/

namespace SealedCatalog

namespace Json

/-- The canonical form of a document with its markers revived. -/
def settle (document : Json) : Option Json :=
  document.canonical.revive.toOption

/-- The reader gets the value out of the document once that is settled. -/
def Yields (document : Json) (read : Json → Option α) (value : α) : Prop :=
  (settle document).bind read = some value

def settleField (field : String × Json) : Option (String × Json) :=
  (settle field.2).map (field.1, ·)

theorem yields_iff {document : Json} {read : Json → Option α} {value : α} :
    Yields document read value ↔
      ∃ settled, settle document = some settled ∧ read settled = some value :=
  Option.bind_eq_some_iff

theorem settle_array (items : List Json) :
    settle (array items) =
      (items.mapM settle).bind fun settled => (ofRevivedItems settled).toOption := by
  have inside : (reviveItems (items.map canonical)).toOption = items.mapM settle := by
    rw [toOption_reviveItems, List.mapM_map]
    rfl
  rw [settle, canonical_array, revive, ← inside]
  cases reviveItems (items.map canonical) <;> rfl

/-- The reader makes the same of an object in whatever order its fields stand. -/
def IgnoresOrder (read : Json → Option α) : Prop :=
  ∀ left right : List (String × Json), left.Perm right → read (object left) = read (object right)

theorem settle_object (fields : List (String × Json)) :
    settle (object fields) =
      ((Dict.insertFields [] (fields.map canonicalField)).mapM reviveField).map object := by
  rw [settle, canonical_object, revive, ← toOption_reviveFields]
  cases reviveFields (Dict.insertFields [] (fields.map canonicalField)) <;> rfl

/-- An object whose keys differ is read as if canonical form left its fields in place. -/
theorem settle_object_bind {read : Json → Option α} (ignores : IgnoresOrder read)
    {fields : List (String × Json)}
    (distinct : fields.Pairwise fun left right => left.1 ≠ right.1) :
    (settle (object fields)).bind read =
      (fields.mapM settleField).bind fun settled => read (object settled) := by
  have moved : (fields.map canonicalField).Perm
      (Dict.insertFields [] (fields.map canonicalField)) := by
    have differ : (fields.map canonicalField).Pairwise fun left right => left.1 ≠ right.1 :=
      List.pairwise_map.mpr distinct
    exact (Dict.perm_insertFields (by rwa [List.nil_append])).symm
  have inPlace : fields.mapM settleField = (fields.map canonicalField).mapM
      reviveField := by
    rw [List.mapM_map]
    rfl
  rw [settle_object, inPlace]
  cases first : (fields.map canonicalField).mapM
      reviveField with
  | some results =>
      rcases exists_perm_of_mapM moved first with ⟨others, found, order⟩
      rw [found]
      exact (ignores results others order).symm
  | none =>
      cases second : (Dict.insertFields [] (fields.map canonicalField)).mapM
          reviveField with
      | none => rfl
      | some others =>
          rcases exists_perm_of_mapM moved.symm second with ⟨results, found, _⟩
          simp [first] at found

theorem yields_object_iff {read : Json → Option α} (ignores : IgnoresOrder read)
    {fields : List (String × Json)}
    (distinct : fields.Pairwise fun left right => left.1 ≠ right.1) {value : α} :
    Yields (object fields) read value ↔
      ∃ settled, fields.mapM settleField = some settled ∧ read (object settled) = some value := by
  rw [Yields, settle_object_bind ignores distinct, Option.bind_eq_some_iff]

theorem exists_settled_nil {property : List (String × Json) → Prop} :
    (∃ settled, [].mapM settleField = some settled ∧ property settled) ↔ property [] := by
  simp

/-- The fields of an object settle one by one. -/
theorem exists_settled_cons {name : String} {document : Json}
    {rest : List (String × Json)} {property : List (String × Json) → Prop} :
    (∃ settled, ((name, document) :: rest).mapM settleField = some settled ∧ property settled) ↔
      ∃ value, settle document = some value ∧
        ∃ settled, rest.mapM settleField = some settled ∧
          property ((name, value) :: settled) := by
  simp [settleField, Option.bind_eq_some_iff]

theorem field?_perm {left right : List (String × Json)} (perm : left.Perm right)
    (names : List String) : field? names left = field? names right := by
  have kept := perm.filter fun field => names.contains field.1
  unfold field?
  split
  next empty => rw [empty] at kept; rw [← kept.nil_eq]
  next field single => rw [single] at kept; rw [List.perm_singleton.mp kept.symm]
  next several single =>
    split
    next empty => rw [empty] at kept; exact absurd kept.eq_nil several
    next field found =>
      rw [found] at kept
      exact absurd (List.perm_singleton.mp kept) (single field)
    · rfl

theorem ignoresOrder_fields? (names : List (List String))
    (assemble : List (Option Json) → Option α) :
    IgnoresOrder fun document => (fields? names document).bind assemble := by
  intro left right perm
  simp only [fields?, field?_perm perm]

end Json

end SealedCatalog
