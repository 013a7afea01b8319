import SealedCatalog.Proofs.Json.Structure

/-! Canonical documents: in every object the keys ascend. `canonical` gives such a document and
changes none that is one. -/

namespace SealedCatalog.Json

inductive IsCanonical : Json → Prop where
  | null : IsCanonical null
  | bool (value : Bool) : IsCanonical (bool value)
  | int (value : Int) : IsCanonical (int value)
  | float (value : Number.Binary64) : IsCanonical (float value)
  | string (value : String) : IsCanonical (string value)
  | array {items : List Json} (each : ∀ item ∈ items, IsCanonical item) :
      IsCanonical (array items)
  | object {fields : List (String × Json)}
      (ascending : fields.Pairwise (fun left right => left.1 < right.1))
      (each : ∀ field ∈ fields, IsCanonical field.2) : IsCanonical (object fields)

/-- A field with its value in canonical form. -/
def canonicalField (field : String × Json) : String × Json :=
  (field.1, canonical field.2)

theorem canonicalItems_eq_map (items : List Json) :
    canonicalItems items = items.map canonical := by
  induction items with
  | nil => rfl
  | cons item rest induction => rw [canonicalItems, induction, List.map_cons]

theorem canonicalFields_eq_insertFields (inserted fields : List (String × Json)) :
    canonicalFields inserted fields = Dict.insertFields inserted (fields.map canonicalField) := by
  induction fields generalizing inserted with
  | nil => rfl
  | cons field rest induction => exact induction _

theorem canonical_array (items : List Json) :
    canonical (array items) = array (items.map canonical) := by
  rw [canonical, canonicalItems_eq_map]

theorem canonical_object (fields : List (String × Json)) :
    canonical (object fields) =
      object (Dict.insertFields [] (fields.map canonicalField)) := by
  rw [canonical, canonicalFields_eq_insertFields]

theorem exists_of_mem_canonical {fields : List (String × Json)} {field : String × Json}
    (member : field ∈ Dict.insertFields [] (fields.map canonicalField)) :
    ∃ original ∈ fields, canonicalField original = field := by
  rcases Dict.mem_insertFields member with none | mapped
  · simp at none
  · exact List.mem_map.mp mapped

theorem isCanonical_canonical (document : Json) : IsCanonical document.canonical := by
  induction document with
  | null => exact .null
  | bool value => exact .bool value
  | int value => exact .int value
  | float value => exact .float value
  | string value => exact .string value
  | array items induction =>
      rw [canonical_array]
      refine .array fun item member => ?_
      rcases List.mem_map.mp member with ⟨original, originalMember, rfl⟩
      exact induction original originalMember
  | object fields induction =>
      rw [canonical_object]
      refine .object (Dict.ascending_insertFields List.Pairwise.nil _) fun field member => ?_
      rcases exists_of_mem_canonical member with ⟨original, originalMember, rfl⟩
      exact induction original originalMember

theorem canonical_of_isCanonical {document : Json} (isCanonical : IsCanonical document) :
    document.canonical = document := by
  induction isCanonical with
  | @array items _ induction =>
      have same : items.map canonical = items.map id :=
        List.map_congr_left fun item member => induction item member
      rw [canonical_array, same, List.map_id]
  | @object fields ascending _ induction =>
      have same : fields.map canonicalField = fields.map id :=
        List.map_congr_left fun field member => Prod.ext rfl (induction field member)
      rw [canonical_object, same, List.map_id,
        Dict.insertFields_eq_append (by simpa using ascending), List.nil_append]
  | _ => rfl

/-- What holds of a document whenever it holds of its parts carries over to the canonical form. -/
theorem forall_mem_canonical {property : Json → Prop} {fields : List (String × Json)}
    (each : ∀ field ∈ fields, property field.2.canonical) :
    ∀ field ∈ Dict.insertFields [] (fields.map canonicalField), property field.2 := by
  intro field member
  rcases exists_of_mem_canonical member with ⟨original, originalMember, rfl⟩
  exact each original originalMember

end SealedCatalog.Json
