import SealedCatalog.Proofs.Json.Canonical

/-! Looking up the fields of an object by name. In a canonical object a look-up finds the only field
of the name, which is what the readers of structures ask for. -/

namespace SealedCatalog.Json

/-- The value of a field, if the document is an object that has the field. -/
def get? (name : String) : Json → Option Json
  | object fields => Dict.findField name fields
  | _ => none

/-- In the canonical form the last of the fields with one name is found. -/
theorem get?_canonical_object (name : String) (fields : List (String × Json)) :
    (canonical (object fields)).get? name =
      (Dict.findField name fields.reverse).map canonical := by
  have mapped : (fields.map canonicalField).reverse =
      fields.reverse.map fun field => (field.1, canonical field.2) := by
    rw [List.map_reverse]
    rfl
  rw [canonical_object, get?, Dict.findField_insertFields, mapped, Dict.findField_map]
  simp [Dict.findField]

theorem exists_eq_object_of_get? {document : Json} {name : String} {value : Json}
    (found : document.get? name = some value) : ∃ fields, document = .object fields := by
  cases document with
  | object fields => exact ⟨fields, rfl⟩
  | _ => cases found

theorem get?_insertField_self (name : String) (value : Json) (fields : List (String × Json)) :
    (object (Dict.insertField name value fields)).get? name = some value :=
  Dict.findField_insertField_self name value fields

theorem get?_insertField_of_ne {name other : String} (different : name ≠ other) (value : Json)
    (fields : List (String × Json)) :
    (object (Dict.insertField name value fields)).get? other = (object fields).get? other :=
  Dict.findField_insertField_of_ne different value fields

theorem canonical_texts (texts : List String) :
    canonical (array (texts.map string)) = array (texts.map string) := by
  rw [canonical_array, List.map_map]
  rfl

section Object

variable {fields : List (String × Json)}

theorem IsCanonical.ascending (isCanonical : IsCanonical (.object fields)) :
    fields.Pairwise (fun left right => left.1 < right.1) := by
  cases isCanonical with
  | object ascending _ => exact ascending

theorem IsCanonical.of_get? {document : Json} (isCanonical : IsCanonical document) {name : String}
    {value : Json} (found : document.get? name = some value) : IsCanonical value := by
  cases isCanonical with
  | object ascending each =>
      exact each (name, value) ((Dict.findField_eq_some_iff ascending).mp found)
  | _ => cases found

theorem IsCanonical.of_mem {items : List Json} (isCanonical : IsCanonical (.array items))
    {item : Json} (member : item ∈ items) : IsCanonical item := by
  cases isCanonical with
  | array each => exact each item member

theorem IsCanonical.insertField (isCanonical : IsCanonical (.object fields)) (name : String)
    {value : Json} (valueCanonical : IsCanonical value) :
    IsCanonical (.object (Dict.insertField name value fields)) := by
  cases isCanonical with
  | object ascending each =>
      refine .object (Dict.ascending_insertField ascending) fun field member => ?_
      rcases Dict.mem_insertField member with same | earlier
      · exact same ▸ valueCanonical
      · exact each field earlier

private theorem filter_eq_nil_of_below {name : String}
    (below : ∀ field ∈ fields, name < field.1) :
    fields.filter (fun field => [name].contains field.1) = [] := by
  refine List.filter_eq_nil_iff.mpr fun field member => ?_
  have different : field.1 ≠ name := (String.ne_of_lt (below field member)).symm
  simpa using different

/-- A field that is asked for by one name is looked up. -/
theorem field?_eq_get? (ascending : fields.Pairwise (fun left right => left.1 < right.1))
    (name : String) : field? [name] fields = some ((object fields).get? name) := by
  rw [get?]
  induction fields with
  | nil => rfl
  | cons head rest induction =>
      have ⟨below, tail⟩ := List.pairwise_cons.mp ascending
      by_cases same : head.1 = name
      · subst same
        rw [field?, List.filter_cons_of_pos (by simp), filter_eq_nil_of_below below,
          Dict.findField, if_pos rfl]
      · rw [Dict.findField, if_neg same, ← induction tail, field?, field?,
          List.filter_cons_of_neg (by simpa using same)]

end Object

end SealedCatalog.Json
