import SealedCatalog.Proofs.SortKey.Order

/-! Sorting as a stable sort. Records with a key come first, in the order of their keys, and ties
keep the order of the ids in both directions. That leaves one list of the ids, which is how two
sorted lists are told to be the same. -/

namespace SealedCatalog

namespace SortKey

variable {descending : Bool}

theorem compareDirected_swap (left right : Option String) :
    compareDirected descending left right = (compareDirected descending right left).swap := by
  cases left with
  | none => cases right <;> rfl
  | some left =>
      cases right with
      | none => rfl
      | some right => cases descending <;> exact Std.OrientedOrd.eq_swap

instance transCmp_compareDirected (descending : Bool) :
    Std.TransCmp (compareDirected descending) where
  eq_swap := compareDirected_swap _ _
  isLE_trans := precedes_trans _ _ _

/-- One key precedes another if only the second is missing, or both are there and in order. -/
theorem precedes_iff {left right : Option String} :
    precedes descending left right = true ↔ (left = none → right = none) ∧
      ∀ first ∈ left, ∀ second ∈ right,
        if descending then second ≤ first else first ≤ second := by
  rcases left with _ | left <;> rcases right with _ | right <;> simp [precedes_some_iff]

theorem eq_of_precedes {left right : Option String} (before : precedes descending left right = true)
    (after : precedes descending right left = true) : left = right := by
  rcases left with _ | left <;> rcases right with _ | right <;> simp at before after ⊢
  rw [precedes_some_iff] at before after
  cases descending with
  | false => exact le_antisymm before after
  | true => exact le_antisymm after before

theorem precedes_refl (key : Option String) : precedes descending key key = true :=
  (Bool.or_self _).symm.trans (precedes_total key key)

end SortKey

theorem StandsBefore.asymm {order : List String} {first second : String}
    (before : StandsBefore order first second) : ¬ StandsBefore order second first := by
  rcases before with ⟨distinct, before⟩
  rintro ⟨-, after⟩
  induction order with
  | nil => cases before
  | cons head rest induction =>
      have ⟨fresh, others⟩ := List.nodup_cons.mp distinct
      cases before with
      | cons _ later =>
          cases after with
          | cons _ alsoLater => exact induction others later alsoLater
          | cons_cons _ _ => exact fresh (later.subset (by simp))
      | cons_cons _ later =>
          cases after with
          | cons _ alsoLater => exact fresh (alsoLater.subset (by simp))
          | cons_cons _ _ => exact fresh (later.subset (by simp))

namespace Records

variable {records : Records} {entry : Entry} {pool : TagPool} {descending : Bool}

/-- The list has every id once. Records with a key come before those without one and are ordered by
it, and records that are equal in this have ascending ids. -/
structure IsStableSort (records : Records) (entry : Entry) (pool : TagPool) (descending : Bool)
    (order : List String) : Prop where
  permutes : order.Perm records.keys
  keyedFirst : order.Pairwise fun first second =>
    records.keyOf entry pool first = none → records.keyOf entry pool second = none
  ordered : order.Pairwise fun first second =>
    ∀ firstKey ∈ records.keyOf entry pool first, ∀ secondKey ∈ records.keyOf entry pool second,
      if descending then secondKey ≤ firstKey else firstKey ≤ secondKey
  stable : order.Pairwise fun first second =>
    records.keyOf entry pool first = records.keyOf entry pool second → first < second

theorem ascending_keyed : (records.keyed entry pool).Pairwise fun left right => left.1 < right.1 :=
  List.pairwise_map.mpr records.ascending

/-- Sorting leaves records with one key in the order in which they were, that of the ids. -/
theorem standsBefore_of_keyOf_eq {first second : String} (firstStored : first ∈ records.keys)
    (secondStored : second ∈ records.keys)
    (tied : records.keyOf entry pool first = records.keyOf entry pool second)
    (less : first < second) :
    StandsBefore (records.sortedBy entry pool descending) first second := by
  have keyed : ∀ {id}, id ∈ records.keys →
      (id, records.keyOf entry pool id) ∈ records.keyed entry pool := fun stored => by
    rcases Dict.mem_keys_iff.mp stored with ⟨record, found⟩
    exact List.mem_map.mpr ⟨_, Dict.get?_eq_some_iff.mp found, by rw [keyOf_eq found]⟩
  have before := pair_sublist_of_pairwise ascending_keyed (keyed firstStored) (keyed secondStored)
    (fun same => less.ne (congrArg Prod.fst same)) less.not_gt
  have kept := List.pair_sublist_mergeSort
    (fun first second third => @SortKey.precedes_trans descending first.2 second.2 third.2)
    (fun left right => SortKey.precedes_total left.2 right.2)
    (tied ▸ SortKey.precedes_refl _) before
  exact ⟨nodup_sortedBy, kept.map Prod.fst⟩

theorem isStableSort_sortedBy (records : Records) (entry : Entry) (pool : TagPool)
    (descending : Bool) :
    records.IsStableSort entry pool descending (records.sortedBy entry pool descending) where
  permutes := perm_sortedBy
  keyedFirst := pairwise_sortedBy.imp fun before => (SortKey.precedes_iff.mp before).1
  ordered := pairwise_sortedBy.imp fun before => (SortKey.precedes_iff.mp before).2
  stable := by
    refine List.pairwise_iff_forall_sublist.mpr fun {first second} before tied => ?_
    have stored : ∀ id ∈ [first, second], id ∈ records.keys := fun id member =>
      perm_sortedBy.mem_iff.mp (before.subset member)
    rcases lt_trichotomy first second with less | same | greater
    · exact less
    · subst same
      exact absurd (before.nodup nodup_sortedBy) (by simp)
    · have after : StandsBefore (records.sortedBy entry pool descending) second first :=
        standsBefore_of_keyOf_eq (stored second (by simp)) (stored first (by simp)) tied.symm
          greater
      exact absurd ⟨nodup_sortedBy, before⟩ after.asymm

/-- There is only one stable sort, since of two ids only one can come first. -/
theorem IsStableSort.unique {left right : List String}
    (first : records.IsStableSort entry pool descending left)
    (second : records.IsStableSort entry pool descending right) : left = right := by
  refine List.Perm.eq_of_pairwise ?_
    ((first.keyedFirst.and first.ordered).and first.stable)
    ((second.keyedFirst.and second.ordered).and second.stable)
    (first.permutes.trans second.permutes.symm)
  rintro former latter _ _ ⟨before, ascending⟩ ⟨after, descends⟩
  have tied := SortKey.eq_of_precedes (SortKey.precedes_iff.mpr before)
    (SortKey.precedes_iff.mpr after)
  exact absurd (ascending tied) (descends tied.symm).not_gt

theorem IsStableSort.keyless_of_standsBefore {order : List String}
    (sorted : records.IsStableSort entry pool descending order) {first second : String}
    (before : StandsBefore order first second) (keyless : records.keyOf entry pool first = none) :
    records.keyOf entry pool second = none :=
  List.pairwise_iff_forall_sublist.mp sorted.keyedFirst before.2 keyless

theorem IsStableSort.lt_of_standsBefore {order : List String}
    (sorted : records.IsStableSort entry pool descending order) {first second : String}
    (before : StandsBefore order first second)
    (tied : records.keyOf entry pool first = records.keyOf entry pool second) : first < second :=
  List.pairwise_iff_forall_sublist.mp sorted.stable before.2 tied

theorem IsStableSort.eq_sortedBy {order : List String}
    (sorted : records.IsStableSort entry pool descending order) :
    records.sortedBy entry pool descending = order :=
  (isStableSort_sortedBy records entry pool descending).unique sorted

/-- What precedes what settles how the records are sorted. -/
theorem sortedBy_eq_of_precedes {other : TagPool}
    (same : ∀ first ∈ records.keys, ∀ second ∈ records.keys,
      SortKey.precedes descending (records.keyOf entry pool first)
          (records.keyOf entry pool second) =
        SortKey.precedes descending (records.keyOf entry other first)
          (records.keyOf entry other second)) :
    records.sortedBy entry pool descending = records.sortedBy entry other descending := by
  have sorted := isStableSort_sortedBy records entry other descending
  have stored : ∀ {id}, id ∈ records.sortedBy entry other descending → id ∈ records.keys :=
    sorted.permutes.mem_iff.mp
  have before : (records.sortedBy entry other descending).Pairwise fun first second =>
      SortKey.precedes descending (records.keyOf entry pool first)
        (records.keyOf entry pool second) = true :=
    pairwise_sortedBy.imp_of_mem fun first second before =>
      (same _ (stored first) _ (stored second)).trans before
  refine IsStableSort.eq_sortedBy ⟨sorted.permutes,
    before.imp fun before => (SortKey.precedes_iff.mp before).1,
    before.imp fun before => (SortKey.precedes_iff.mp before).2,
    sorted.stable.imp_of_mem fun {first second} firstMember secondMember ascending tied =>
      ascending (@SortKey.eq_of_precedes descending _ _ ?_ ?_)⟩
  · rw [← same _ (stored firstMember) _ (stored secondMember), tied, SortKey.precedes_refl]
  · rw [← same _ (stored secondMember) _ (stored firstMember), tied, SortKey.precedes_refl]

/-- The comparison of keys is a total preorder in each direction, and the sorted list is the one
list of the ids that is a stable sort by it. -/
theorem isStableSort_iff (records : Records) (entry : Entry) (pool : TagPool) (descending : Bool) :
    Std.TransCmp (SortKey.compareDirected descending) ∧
      ∀ order, records.IsStableSort entry pool descending order ↔
        records.sortedBy entry pool descending = order :=
  ⟨inferInstance, fun _ => ⟨IsStableSort.eq_sortedBy, fun sorted =>
    sorted ▸ isStableSort_sortedBy records entry pool descending⟩⟩

end Records

end SealedCatalog
