import SealedCatalog.Proofs.SortKey.Packed
import SealedCatalog.Proofs.SortKey.Stability
import SealedCatalog.Proofs.TagPool

/-! Keys of tags. Indices are written with the same number of digits one after the other, so that
the keys are in the order of the lists of indices. Registering tags may widen all keys, which
leaves the order of the records as it is. -/

namespace SealedCatalog

namespace SortKey

/-! ## Rows of one length -/

/-- Rows of one length decide before what comes after them is looked at. -/
theorem append_lt_append_iff {left right : List Char} (sameLength : left.length = right.length)
    (leftRest rightRest : List Char) : left ++ leftRest < right ++ rightRest ↔
      left < right ∨ left = right ∧ leftRest < rightRest := by
  induction left generalizing right with
  | nil =>
      rw [List.eq_nil_of_length_eq_zero sameLength.symm]
      simp
  | cons char rest induction =>
      cases right with
      | nil => simp at sameLength
      | cons other others =>
          rw [List.cons_append, List.cons_append, List.cons_lt_cons_iff, List.cons_lt_cons_iff,
            induction (Nat.succ.inj sameLength), List.cons.injEq]
          tauto

theorem padded_eq_padded_iff {length left right : Nat} :
    padded length left = padded length right ↔ left = right := by
  refine ⟨fun same => ?_, fun same => same ▸ rfl⟩
  have numbers := congrArg (Nat.ofDigitChars 10 · 0) same
  simpa only [ofDigitChars_padded] using numbers

/-- Numbers padded to one length and written one after the other are in the order of the lists: the
first numbers that differ decide, and a list that ends first comes first. -/
theorem flatMap_padded_lt_iff {length : Nat} (positive : 0 < length) {left right : List Nat}
    (leftFits : ∀ value ∈ left, value < 10 ^ length)
    (rightFits : ∀ value ∈ right, value < 10 ^ length) :
    left.flatMap (padded length) < right.flatMap (padded length) ↔ left < right := by
  induction left generalizing right with
  | nil =>
      cases right with
      | nil => simp
      | cons other others =>
          have some : (padded length other).length = length :=
            length_padded positive (rightFits other List.mem_cons_self)
          cases written : padded length other with
          | nil => simp [written, positive.ne] at some
          | cons digit digits => simp [written]
  | cons value rest induction =>
      cases right with
      | nil => simp
      | cons other others =>
          have ⟨valueFits, restFit⟩ := List.forall_mem_cons.mp leftFits
          have ⟨otherFits, othersFit⟩ := List.forall_mem_cons.mp rightFits
          have sameLength := (length_padded positive valueFits).trans
            (length_padded positive otherFits).symm
          rw [List.flatMap_cons, List.flatMap_cons, append_lt_append_iff sameLength,
            padded_lt_padded_iff positive valueFits otherFits, padded_eq_padded_iff,
            induction restFit othersFit, List.cons_lt_cons_iff]

/-! ## Joined indices -/

/-- A list of one tag needs no width, since no index is written with fewer digits than one. -/
theorem padded_indexWidth (count value : Nat) :
    padded (indexWidth count) value = padded (Nat.toDigits 10 (count - 1)).length value := by
  unfold indexWidth
  split
  next few =>
    have positive : 0 < (Nat.toDigits 10 value).length := Nat.length_toDigits_pos
    have single : (Nat.toDigits 10 (count - 1)).length = 1 := by
      rw [Nat.sub_eq_zero_of_le few]
      rfl
    simp only [padded, single]
    rw [Nat.sub_eq_zero_of_le positive, Nat.zero_sub]
  · rfl

theorem toList_joinIndices (indices : List Nat) (count : Nat) :
    (joinIndices indices count).toList =
      indices.flatMap (padded (Nat.toDigits 10 (count - 1)).length) := by
  rw [joinIndices, String.toList_ofList]
  exact congrArg (indices.flatMap ·) (funext (padded_indexWidth count))

theorem joinIndices_lt_iff {count : Nat} {left right : List Nat}
    (leftInside : ∀ index ∈ left, index < count) (rightInside : ∀ index ∈ right, index < count) :
    joinIndices left count < joinIndices right count ↔ left < right := by
  have fits : ∀ index < count, index < 10 ^ (Nat.toDigits 10 (count - 1)).length := by
    intro index inside
    have greatest := (Nat.length_toDigits_le_iff (by decide) Nat.length_toDigits_pos).mp
      (le_refl (Nat.toDigits 10 (count - 1)).length)
    omega
  rw [String.lt_iff_toList_lt, toList_joinIndices, toList_joinIndices]
  exact flatMap_padded_lt_iff Nat.length_toDigits_pos
    (fun index member => fits index (leftInside index member))
    (fun index member => fits index (rightInside index member))

theorem joinIndices_eq_iff {count : Nat} {left right : List Nat}
    (leftInside : ∀ index ∈ left, index < count) (rightInside : ∀ index ∈ right, index < count) :
    joinIndices left count = joinIndices right count ↔ left = right := by
  rw [eq_iff_le_not_lt, eq_iff_le_not_lt, ← not_lt, ← not_lt,
    joinIndices_lt_iff leftInside rightInside, joinIndices_lt_iff rightInside leftInside]

end SortKey

/-- The indices that a value is sorted by under a tag entry. -/
def EntryValue.sortedIndices? (entry : Entry) : EntryValue → Option (List Nat)
  | .tags indices => if entry.sortingMethod.isActive then some indices else none
  | _ => none

namespace SortKey

/-- Under a tag entry the pool gives only the number of tags that the indices are written for, and
under any other nothing. -/
theorem ofValue_eq_map (entry : Entry) (value : EntryValue) (pool : TagPool) :
    ofValue entry value pool =
      if entry.entryType = .tag then
        (value.sortedIndices? entry).map (joinIndices · (pool.count entry.name))
      else ofValue entry value TagPool.empty := by
  rcases entry with ⟨name, method, optional, kind⟩
  cases kind <;> cases value <;> try rfl
  simp only [ofValue, encodeIndices, EntryValue.sortedIndices?, Entry.entryType,
    EntryKind.entryType, if_true]
  split <;> rfl

/-- The comparison of lists of indices does not depend on how wide they are written. -/
theorem precedes_map_joinIndices {descending : Bool} {count grown : Nat}
    {left right : Option (List Nat)} (below : count ≤ grown)
    (leftInside : ∀ indices ∈ left, ∀ index ∈ indices, index < count)
    (rightInside : ∀ indices ∈ right, ∀ index ∈ indices, index < count) :
    precedes descending (left.map (joinIndices · grown)) (right.map (joinIndices · grown)) =
      precedes descending (left.map (joinIndices · count)) (right.map (joinIndices · count)) := by
  rcases left with _ | left <;> rcases right with _ | right <;> try rfl
  have leftInside := leftInside left rfl
  have rightInside := rightInside right rfl
  have leftStill : ∀ index ∈ left, index < grown := fun index member =>
    (leftInside index member).trans_le below
  have rightStill : ∀ index ∈ right, index < grown := fun index member =>
    (rightInside index member).trans_le below
  rw [Bool.eq_iff_iff, Option.map_some, Option.map_some, Option.map_some, Option.map_some,
    precedes_some_iff, precedes_some_iff, ← not_lt, ← not_lt, ← not_lt, ← not_lt,
    joinIndices_lt_iff leftStill rightStill, joinIndices_lt_iff rightStill leftStill,
    joinIndices_lt_iff leftInside rightInside, joinIndices_lt_iff rightInside leftInside]

end SortKey

namespace Records

variable {records : Records} {entry : Entry} {pool extended : TagPool}

/-- All indices that records have for the entry are below the number of its tags. -/
def PointInto (records : Records) (entry : Entry) (pool : TagPool) : Prop :=
  ∀ id record indices, records.get? id = some record →
    record.get? entry.name = some (.tags indices) →
      ∀ index ∈ indices, index < pool.count entry.name

/-- The indices that the record with the given id is sorted by under a tag entry. -/
def sortedIndicesOf? (records : Records) (entry : Entry) (id : String) : Option (List Nat) :=
  (records.get? id).bind fun record =>
    (record.get? entry.name).bind (EntryValue.sortedIndices? entry)

theorem keyOf_eq_map (records : Records) (entry : Entry) (pool : TagPool) (id : String) :
    records.keyOf entry pool id =
      if entry.entryType = .tag then
        (records.sortedIndicesOf? entry id).map
          (SortKey.joinIndices · (pool.count entry.name))
      else records.keyOf entry TagPool.empty id := by
  simp only [keyOf, SortKey.ofRecord, sortedIndicesOf?]
  rw [funext fun value => SortKey.ofValue_eq_map entry value pool]
  split
  · simp only [Option.map_bind, Function.comp_def]
  · rfl

theorem PointInto.sortedIndicesOf? (inside : records.PointInto entry pool) {id : String} :
    ∀ indices ∈ records.sortedIndicesOf? entry id, ∀ index ∈ indices,
      index < pool.count entry.name := by
  intro indices sorted
  rcases Option.bind_eq_some_iff.mp sorted with ⟨record, found, held⟩
  rcases Option.bind_eq_some_iff.mp held with ⟨value, stored, sortedBy⟩
  cases value with
  | tags =>
      simp only [EntryValue.sortedIndices?] at sortedBy
      split at sortedBy
      · cases sortedBy
        exact inside id record indices found stored
      · cases sortedBy
  | string => cases sortedBy
  | rating => cases sortedBy

theorem sortedBy_eq_of_extends (grown : pool.Extends extended)
    (inside : records.PointInto entry pool) (descending : Bool) :
    records.sortedBy entry extended descending = records.sortedBy entry pool descending := by
  refine sortedBy_eq_of_precedes fun first _ second _ => ?_
  rw [keyOf_eq_map records entry extended first, keyOf_eq_map records entry extended second,
    keyOf_eq_map records entry pool first, keyOf_eq_map records entry pool second]
  split
  · exact SortKey.precedes_map_joinIndices (grown.count_le entry.name) inside.sortedIndicesOf?
      inside.sortedIndicesOf?
  · rfl

/-- Keys of tags are in the order of the lists of indices, however many tags there are, and so
registering tags leaves the order of records as it is in both directions. -/
theorem sortedBy_registerAll :
    (∀ (count : Nat) (left right : List Nat), (∀ index ∈ left, index < count) →
      (∀ index ∈ right, index < count) →
        (SortKey.joinIndices left count < SortKey.joinIndices right count ↔ left < right) ∧
          (SortKey.joinIndices left count = SortKey.joinIndices right count ↔ left = right)) ∧
      ∀ (records : Records) (entry : Entry) (pool : TagPool), records.PointInto entry pool →
        ∀ (registrations : List (String × List String)) (descending : Bool),
          records.sortedBy entry (pool.registerAll registrations) descending =
            records.sortedBy entry pool descending :=
  ⟨fun _ _ _ leftInside rightInside =>
    ⟨SortKey.joinIndices_lt_iff leftInside rightInside,
      SortKey.joinIndices_eq_iff leftInside rightInside⟩,
    fun _ _ pool inside registrations descending =>
      sortedBy_eq_of_extends (pool.extends_registerAll registrations) inside descending⟩

/-! Ten styles, of which one digit tells the indices apart, and an eleventh -/

def style : Entry := .tag "style" .asString false

def styles : TagPool :=
  .ofEntries [(style.name, "abcdefghij".toList.map Char.toString)]

def styled : Records :=
  Dict.ofList ([("a", [9]), ("b", [1, 9]), ("c", [1])].map fun (id, indices) =>
    (id, Record.empty.withEntry style.name (.tags indices)))

theorem pointInto_styled : styled.PointInto style styles := by
  intro id record indices found stored
  have count : styles.count style.name = 10 := by decide +kernel
  have members : styled.toList = [("a", Record.empty.withEntry style.name (.tags [9])),
      ("b", Record.empty.withEntry style.name (.tags [1, 9])),
      ("c", Record.empty.withEntry style.name (.tags [1]))] := by decide +kernel
  have member := Dict.get?_eq_some_iff.mp found
  rw [members] at member
  rw [count]
  simp only [List.mem_cons, Prod.mk.injEq, List.not_mem_nil, or_false] at member
  rcases member with ⟨-, rfl⟩ | ⟨-, rfl⟩ | ⟨-, rfl⟩ <;> cases stored <;> decide

theorem sortedBy_registerAll_styled :
    ((∀ index ∈ [1, 9], index < 10) ∧ (∀ index ∈ [9], index < 10) ∧
      styled.PointInto style styles) ∧
      SortKey.joinIndices [1, 9] 10 < SortKey.joinIndices [9] 10 ∧
      styled.sortedBy style (styles.registerAll [("style", ["k", "a"])]) true =
        styled.sortedBy style styles true := by
  have leftInside : ∀ index ∈ [1, 9], index < 10 := by decide
  have rightInside : ∀ index ∈ [9], index < 10 := by decide
  exact ⟨⟨leftInside, rightInside, pointInto_styled⟩,
    (sortedBy_registerAll.1 10 [1, 9] [9] leftInside rightInside).1.mpr (by decide),
    sortedBy_registerAll.2 styled style styles pointInto_styled _ true⟩

end Records

end SealedCatalog
