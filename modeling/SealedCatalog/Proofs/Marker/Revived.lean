import SealedCatalog.Proofs.Marker.Unmarked

/-! Revival is done in one pass: it leaves no marker at any depth, so that a second pass changes
nothing, and it changes nothing where no marker stands. -/

namespace SealedCatalog.Json

/-- The first document stands in the second one, as a whole or at any depth. -/
inductive StandsIn (part : Json) : Json → Prop where
  | whole : StandsIn part part
  | item {items : List Json} {item : Json} (member : item ∈ items) (inside : StandsIn part item) :
      StandsIn part (array items)
  | field {fields : List (String × Json)} {field : String × Json} (member : field ∈ fields)
      (inside : StandsIn part field.2) : StandsIn part (object fields)

/-- A string that begins with the bytes marker, or an array whose first item is the map marker. -/
def IsMarker : Json → Prop
  | string text => Text.beginsWith text Marker.bytes = true
  | array items => items.head? = some (string Marker.map)
  | _ => False

/-- No marker stands in the document. -/
def IsFree (document : Json) : Prop :=
  ∀ part, StandsIn part document → ¬ IsMarker part

theorem IsFree.of_mem {items : List Json} (free : IsFree (array items)) {item : Json}
    (member : item ∈ items) : IsFree item :=
  fun part inside => free part (.item member inside)

theorem IsFree.of_field {fields : List (String × Json)} (free : IsFree (object fields))
    {field : String × Json} (member : field ∈ fields) : IsFree field.2 :=
  fun part inside => free part (.field member inside)

theorem IsUnmarked.not_isMarker {document : Json} (unmarked : IsUnmarked document) :
    ¬ IsMarker document := by
  cases unmarked with
  | string plain => exact Bool.eq_false_iff.mp plain
  | array headed _ => exact headed
  | _ => exact id

theorem IsUnmarked.of_standsIn {part document : Json} (inside : StandsIn part document)
    (unmarked : IsUnmarked document) : IsUnmarked part := by
  induction inside with
  | whole => exact unmarked
  | item member _ induction =>
      cases unmarked with
      | array _ each => exact induction (each _ member)
  | field member _ induction =>
      cases unmarked with
      | object each => exact induction (each _ member)

theorem isUnmarked_iff_isFree {document : Json} : IsUnmarked document ↔ IsFree document := by
  constructor
  · exact fun unmarked part inside => (unmarked.of_standsIn inside).not_isMarker
  intro free
  induction document with
  | null => exact .null
  | bool value => exact .bool value
  | int value => exact .int value
  | float value => exact .float value
  | string text => exact .string (Bool.eq_false_iff.mpr (free _ .whole))
  | array items induction =>
      exact .array (free _ .whole) fun item member => induction item member (free.of_mem member)
  | object fields induction =>
      exact .object fun field member => induction field member (free.of_field member)

/-- One pass of revival is enough: no marker is left, at any depth, and a second pass changes
nothing. A document is its own revival exactly when there is no marker in it. -/
theorem revive_settles (document : Json) :
    (∀ revived, document.revive = .ok revived →
      revived.revive = .ok revived ∧ IsFree revived) ∧
    (document.revive = .ok document ↔ IsFree document) := by
  have left : ∀ revived, document.revive = .ok revived → IsUnmarked revived :=
    fun revived => isUnmarked_of_revive
  refine ⟨fun revived found => ⟨?_, ?_⟩, fun same => ?_, fun free => ?_⟩
  · exact revive_of_isUnmarked (left revived found)
  · exact isUnmarked_iff_isFree.mp (left revived found)
  · exact isUnmarked_iff_isFree.mp (left document same)
  · exact revive_of_isUnmarked (isUnmarked_iff_isFree.mpr free)

/-- A map in a map, which holds a byte. -/
def nestedMaps : Json :=
  array [string Marker.map, array [string "x",
    array [string Marker.map, array [string "y", string "base64://AQ=="]]]]

theorem revive_settles_nestedMaps :
    nestedMaps.revive = .ok (object [("x", object [("y", array [int 1])])]) ∧
      (object [("x", object [("y", array [int 1])])]).revive =
        .ok (object [("x", object [("y", array [int 1])])]) ∧
      IsFree (object [("x", object [("y", array [int 1])])]) :=
  have revived : nestedMaps.revive = .ok (object [("x", object [("y", array [int 1])])]) := rfl
  ⟨revived, (revive_settles nestedMaps).1 _ revived⟩

end SealedCatalog.Json
