import Mathlib.Data.String.Basic
import SealedCatalog.SortKey.Order

/-! The order in which records are listed. The comparison of keys is total and transitive in both
directions, so the list has every record once and is ordered by the keys. -/

namespace SealedCatalog

namespace SortKey

theorem isLE_compare {left right : String} : (compare left right).isLE = true ↔ left ≤ right := by
  rw [Ordering.isLE_iff_ne_gt]
  exact compare_le_iff_le

/-- The order of two keys in a direction. -/
theorem precedes_some_iff {descending : Bool} {left right : String} :
    precedes descending (some left) (some right) = true ↔
      if descending then right ≤ left else left ≤ right := by
  cases descending <;> exact isLE_compare

@[simp] theorem precedes_some_none (descending : Bool) (left : String) :
    precedes descending (some left) none = true := rfl

@[simp] theorem precedes_none_some (descending : Bool) (right : String) :
    precedes descending none (some right) = false := rfl

@[simp] theorem precedes_none_none (descending : Bool) :
    precedes descending none none = true := rfl

theorem precedes_trans {descending : Bool} (first second third : Option String)
    (before : precedes descending first second = true)
    (after : precedes descending second third = true) :
    precedes descending first third = true := by
  rcases third with _ | third
  · cases first <;> simp
  rcases second with _ | second
  · simp at after
  rcases first with _ | first
  · simp at before
  rw [precedes_some_iff] at before after ⊢
  cases descending with
  | false => exact le_trans before after
  | true => exact le_trans after before

theorem precedes_total {descending : Bool} (left right : Option String) :
    (precedes descending left right || precedes descending right left) = true := by
  cases left with
  | none => cases right <;> simp
  | some left =>
      cases right with
      | none => rfl
      | some right =>
          rw [Bool.or_eq_true, precedes_some_iff, precedes_some_iff]
          cases descending with
          | false => exact le_total left right
          | true => exact le_total right left

end SortKey

/-- The one id stands before the other in a list that has no id twice. -/
def StandsBefore (order : List String) (first second : String) : Prop :=
  order.Nodup ∧ [first, second].Sublist order

/-- In an ordered list the one of two items comes first that must not come second. -/
theorem pair_sublist_of_pairwise {related : α → α → Prop} {items : List α}
    (ordered : items.Pairwise related) {first second : α} (firstMember : first ∈ items)
    (secondMember : second ∈ items) (different : first ≠ second)
    (unordered : ¬ related second first) : [first, second].Sublist items := by
  induction ordered with
  | nil => simp at firstMember
  | @cons head rest below _ induction =>
      rcases List.mem_cons.mp firstMember with rfl | firstLater
      · have secondLater := (List.mem_cons.mp secondMember).resolve_left different.symm
        exact (List.singleton_sublist.mpr secondLater).cons_cons first
      · rcases List.mem_cons.mp secondMember with rfl | secondLater
        · exact absurd (below first firstLater) unordered
        · exact (induction firstLater secondLater).cons head

namespace Records

variable {records : Records} {entry : Entry} {pool : TagPool} {descending : Bool}

/-- The key of the record with the given id, if there is such a record and it has a key. -/
def keyOf (records : Records) (entry : Entry) (pool : TagPool) (id : String) : Option String :=
  (records.get? id).bind fun record => SortKey.ofRecord entry record pool

theorem keyOf_eq {id : String} {record : Record} (found : records.get? id = some record) :
    records.keyOf entry pool id = SortKey.ofRecord entry record pool := by
  rw [keyOf, found, Option.bind_some]

theorem mem_keys_of_keyOf {id key : String} (keyed : records.keyOf entry pool id = some key) :
    id ∈ records.keys := by
  rcases Option.bind_eq_some_iff.mp keyed with ⟨record, found, _⟩
  exact Dict.mem_keys_iff.mpr ⟨record, found⟩

theorem snd_eq_keyOf {field : String × Option String} (member : field ∈ records.keyed entry pool) :
    field.2 = records.keyOf entry pool field.1 := by
  rcases List.mem_map.mp member with ⟨⟨id, record⟩, stored, rfl⟩
  rw [keyOf_eq (Dict.get?_eq_some_iff.mpr stored)]

theorem perm_sortedBy : (records.sortedBy entry pool descending).Perm records.keys := by
  have ids : (records.keyed entry pool).map (·.1) = records.keys := by
    rw [keyed, List.map_map]
    rfl
  rw [← ids]
  exact (List.mergeSort_perm _ _).map _

theorem nodup_sortedBy : (records.sortedBy entry pool descending).Nodup :=
  perm_sortedBy.nodup_iff.mpr records.nodup_keys

theorem pairwise_sortedBy : (records.sortedBy entry pool descending).Pairwise fun left right =>
    SortKey.precedes descending (records.keyOf entry pool left)
      (records.keyOf entry pool right) = true := by
  have ordered : ((records.keyed entry pool).mergeSort fun left right =>
      SortKey.precedes descending left.2 right.2).Pairwise fun left right =>
        SortKey.precedes descending left.2 right.2 = true :=
    List.pairwise_mergeSort
      (fun first second third => SortKey.precedes_trans first.2 second.2 third.2)
      (fun left right => SortKey.precedes_total left.2 right.2) _
  refine List.pairwise_map.mpr (ordered.imp_of_mem fun leftMember rightMember before => ?_)
  rwa [← snd_eq_keyOf (List.mem_mergeSort.mp leftMember),
    ← snd_eq_keyOf (List.mem_mergeSort.mp rightMember)]

/-- Of two records that one stands first whose key must not come second. -/
theorem standsBefore_of_not_precedes {first second : String} (firstStored : first ∈ records.keys)
    (secondStored : second ∈ records.keys)
    (unordered : ¬ SortKey.precedes descending (records.keyOf entry pool second)
      (records.keyOf entry pool first) = true) :
    StandsBefore (records.sortedBy entry pool descending) first second := by
  have different : first ≠ second := by
    rintro rfl
    exact unordered ((Bool.or_self _).symm.trans (SortKey.precedes_total _ _))
  exact ⟨nodup_sortedBy, pair_sublist_of_pairwise pairwise_sortedBy
    (perm_sortedBy.mem_iff.mpr firstStored) (perm_sortedBy.mem_iff.mpr secondStored) different
    unordered⟩

/-- A record with a smaller key stands before one with a greater key, and after it when the
direction is reversed. -/
theorem standsBefore_sortedBy {smaller greater : String} {smallKey greatKey : String}
    (small : records.keyOf entry pool smaller = some smallKey)
    (great : records.keyOf entry pool greater = some greatKey) (less : smallKey < greatKey) :
    StandsBefore (records.sortedBy entry pool false) smaller greater ∧
      StandsBefore (records.sortedBy entry pool true) greater smaller := by
  have smallStored := mem_keys_of_keyOf small
  have greatStored := mem_keys_of_keyOf great
  constructor
  · apply standsBefore_of_not_precedes smallStored greatStored
    rw [small, great, SortKey.precedes_some_iff]
    exact not_le_of_gt less
  · apply standsBefore_of_not_precedes greatStored smallStored
    rw [small, great, SortKey.precedes_some_iff]
    exact not_le_of_gt less

end Records

end SealedCatalog
