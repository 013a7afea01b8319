import Mathlib.Data.List.Sort
import SealedCatalog.Dict

/-! Dictionaries made of many fields: what they hold of repeated keys, a field that is put in among
others, and fields that go along with other fields of the same keys. Dictionaries of lists that are
filled one value after another. -/

namespace SealedCatalog.Dict

/-- Dictionaries in which a look-up finds the same are the same. -/
theorem ext_get? {α : Type} {left right : Dict α}
    (same : ∀ key, left.get? key = right.get? key) : left = right := by
  refine Dict.ext (List.Pairwise.eq_of_mem_iff left.ascending right.ascending fun field => ?_)
  rw [← get?_eq_some_iff, ← get?_eq_some_iff, same]

theorem insert_of_get? {α : Type} {dict : Dict α} {key : String} {value : α}
    (found : dict.get? key = some value) : dict.insert key value = dict := by
  apply ext_get?
  intro other
  by_cases same : key = other
  · rw [← same, get?_insert_self, found]
  · rw [get?_insert_of_ne _ same]

/-- Of the fields with one key the last counts. -/
theorem get?_ofList {α : Type} (fields : List (String × α)) (key : String) :
    (ofList fields).get? key = findField key fields.reverse := by
  rw [get?, toList_ofList, findField_insertFields]
  exact Option.or_none

theorem findField_eq_lookup {α : Type} (key : String) (fields : List (String × α)) :
    findField key fields = fields.lookup key := by
  induction fields with
  | nil => rfl
  | cons head rest induction =>
      rw [findField, List.lookup_cons, induction]
      by_cases same : head.1 = key
      · simp [same]
      · have other : (key == head.1) = false := beq_eq_false_iff_ne.mpr (Ne.symm same)
        rw [if_neg same, other]

theorem findField_eq_none {α : Type} {key : String} {fields : List (String × α)}
    (absent : ∀ field ∈ fields, field.1 ≠ key) : findField key fields = none := by
  induction fields with
  | nil => rfl
  | cons head rest induction =>
      have ⟨different, others⟩ := List.forall_mem_cons.mp absent
      rw [findField, if_neg different, induction others]

/-- It does not matter where the only field of a key stands. -/
theorem ofList_insert {α : Type} {key : String} (value : α) {before after : List (String × α)}
    (absent : ∀ field ∈ before ++ after, field.1 ≠ key) :
    ofList (before ++ (key, value) :: after) = (ofList (before ++ after)).insert key value := by
  have ⟨_, afterAbsent⟩ := List.forall_mem_append.mp absent
  apply ext_get?
  intro other
  by_cases same : key = other
  · subst same
    have none : findField key after.reverse = none :=
      findField_eq_none (by simpa using afterAbsent)
    rw [get?_insert_self, get?_ofList]
    simp [findField_append, findField, none]
  · rw [get?_insert_of_ne _ same, get?_ofList, get?_ofList]
    simp [findField_append, findField, same]

/-- No key has an empty list. -/
def IsFilled {α : Type} (dict : Dict (List α)) : Prop :=
  ∀ key, dict.get? key ≠ some []

theorem isFilled_empty {α : Type} : (empty : Dict (List α)).IsFilled :=
  fun _ => nofun

theorem IsFilled.push {α : Type} {dict : Dict (List α)} (filled : dict.IsFilled) (key : String)
    (value : α) : (dict.push key value).IsFilled := by
  intro other
  by_cases same : key = other
  · rw [← same, Dict.push, get?_insert_self]
    simp
  · rw [Dict.push, get?_insert_of_ne dict same]
    exact filled other

/-- In a filled dictionary the keys are those that have something in their lists. -/
theorem IsFilled.get?_eq_some_iff {α : Type} {dict : Dict (List α)} (filled : dict.IsFilled)
    {key : String} {values : List α} :
    dict.get? key = some values ↔ values ≠ [] ∧ values = dict.listed key := by
  have absent := filled key
  rw [listed]
  cases found : dict.get? key with
  | none => simp
  | some list =>
      rw [found] at absent
      rw [Option.getD_some, Option.some.injEq]
      constructor
      · intro same
        exact ⟨fun nothing => absent (by rw [same, nothing]), same.symm⟩
      · intro both
        exact both.2.symm

section Forall₂

variable {α β : Type} {related : String × α → String × β → Prop}
  (keys : ∀ field other, related field other → field.1 = other.1)

include keys

theorem forall₂_insertField {inserted : List (String × α)} {others : List (String × β)}
    (each : List.Forall₂ related inserted others) {key : String} {value : α} {other : β}
    (here : related (key, value) (key, other)) :
    List.Forall₂ related (insertField key value inserted) (insertField key other others) := by
  induction each with
  | nil => exact .cons here .nil
  | @cons head otherHead rest otherRest first later induction =>
      rw [insertField, insertField, ← keys head otherHead first]
      split
      · exact .cons here (.cons first later)
      · split
        · exact .cons first induction
        · exact .cons here later

/-- Fields that go along with others still do so once they are put in order. -/
theorem forall₂_insertFields {inserted fields : List (String × α)}
    {others otherFields : List (String × β)} (before : List.Forall₂ related inserted others)
    (each : List.Forall₂ related fields otherFields) :
    List.Forall₂ related (insertFields inserted fields) (insertFields others otherFields) := by
  induction each generalizing inserted others with
  | nil => exact before
  | @cons field other rest otherRest first _ induction =>
      rcases field with ⟨key, value⟩
      rcases other with ⟨otherKey, otherValue⟩
      cases keys _ _ first
      exact induction (forall₂_insertField keys before first)

end Forall₂

end SealedCatalog.Dict
