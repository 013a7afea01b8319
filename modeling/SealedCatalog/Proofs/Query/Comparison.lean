import SealedCatalog.Proofs.Query.Enclosing
import SealedCatalog.Proofs.Query.Evaluation
import SealedCatalog.Proofs.SortKey.Order

/-! What comparisons find, against the order of records. A key has exactly one relation to a target,
so the three comparisons with an operand part the records that have a key, in the order in which
they are sorted. -/

namespace SealedCatalog

namespace Relation

/-- The relation of a key to a target. -/
def ofKeys (key target : String) : Relation :=
  match compare key target with
  | .lt => less
  | .eq => equal
  | .gt => greater

theorem holds_iff_eq_ofKeys {relation : Relation} {key target : String} :
    relation.holds key target = true ↔ relation = ofKeys key target := by
  unfold ofKeys
  rcases lt_trichotomy key target with below | same | above
  · rw [compare_lt_iff_lt.mpr below]
    cases relation <;> simp [holds, below, below.ne, below.not_gt]
  · rw [compare_eq_iff_eq.mpr same]
    cases relation <;> simp [holds, same]
  · rw [compare_gt_iff_gt.mpr above]
    cases relation <;> simp [holds, above, above.ne', above.not_gt]

/-- The relation said of any ordered values. -/
def Relates [LT α] (relation : Relation) (left right : α) : Prop :=
  match relation with
  | less => left < right
  | equal => left = right
  | greater => right < left

theorem holds_iff_relates {relation : Relation} {key target : String} :
    relation.holds key target = true ↔ relation.Relates key target := by
  cases relation <;> simp [holds, Relates]

/-- The place of a relation when what has it to a target stands in ascending order. -/
def rank : Relation → Nat
  | less => 0
  | equal => 1
  | greater => 2

theorem lt_of_rank_lt [Preorder α] {earlier later : Relation} (before : earlier.rank < later.rank)
    {first second target : α} (firstRelated : earlier.Relates first target)
    (secondRelated : later.Relates second target) : first < second := by
  cases earlier with
  | less =>
      have below : first < target := firstRelated
      cases later with
      | less => simp [rank] at before
      | equal =>
          have same : second = target := secondRelated
          exact same ▸ below
      | greater => exact below.trans secondRelated
  | equal =>
      have same : first = target := firstRelated
      cases later with
      | less => simp [rank] at before
      | equal => simp [rank] at before
      | greater =>
          have above : target < second := secondRelated
          exact same ▸ above
  | greater => cases later <;> simp [rank] at before

end Relation

namespace Query

variable {configuration : Configuration} {entry : Entry}

/-- The three comparisons with an operand, one of which compiles. A record with a value that has a
key is found by exactly one of them and any other record by none; and whatever a comparison finds
stands before what a later one finds, or after it when the direction is reversed. -/
theorem comparing_parts_sortedBy (configured : configuration.find? entry.name = some entry)
    {operand : String} {accepted : Query}
    (compiled : ofCommand? configuration (comparing entry.name .less operand) = some accepted) :
    ∃ query : Relation → Query,
      (∀ relation, ofCommand? configuration (comparing entry.name relation operand) =
        some (query relation)) ∧
      ∀ pool,
        (∀ record, record.hasEntry entry.name = true →
          (SortKey.ofRecord entry record pool).isSome = true →
            ∃! relation, (query relation).holds configuration pool record = true) ∧
        (∀ record, ¬ (record.hasEntry entry.name = true ∧
          (SortKey.ofRecord entry record pool).isSome = true) →
            ∀ relation, (query relation).holds configuration pool record = false) ∧
        ∀ (records : Records) (earlier later : Relation), earlier.rank < later.rank →
          ∀ smaller ∈ (query earlier).search configuration pool records,
          ∀ greater ∈ (query later).search configuration pool records,
            StandsBefore (records.sortedBy entry pool false) smaller greater ∧
              StandsBefore (records.sortedBy entry pool true) greater smaller := by
  rcases (ofCommand?_comparing_eq_some_iff configured).mp compiled with
    ⟨present, sorts, target, encoded, _⟩
  refine ⟨fun relation => compare entry relation target operand, fun relation =>
    (ofCommand?_comparing_eq_some_iff configured).mpr ⟨present, sorts, target, encoded, rfl⟩,
    fun pool => ⟨fun record has keyed => ?_, fun record lacks relation => ?_,
      fun records earlier later before smaller smallFound greater greatFound => ?_⟩⟩
  · rcases Option.isSome_iff_exists.mp keyed with ⟨key, ofRecord⟩
    refine ⟨Relation.ofKeys key target, holds_compare_iff.mpr
      ⟨has, key, ofRecord, Relation.holds_iff_eq_ofKeys.mpr rfl⟩, fun relation holds => ?_⟩
    rcases holds_compare_iff.mp holds with ⟨_, other, otherKey, related⟩
    rw [Option.some.inj (ofRecord.symm.trans otherKey)]
    exact Relation.holds_iff_eq_ofKeys.mp related
  · refine Bool.eq_false_iff.mpr fun holds => lacks ?_
    rcases holds_compare_iff.mp holds with ⟨has, key, ofRecord, _⟩
    exact ⟨has, Option.isSome_iff_exists.mpr ⟨key, ofRecord⟩⟩
  · rcases mem_search_iff.mp smallFound with ⟨smallRecord, smallStored, smallHolds⟩
    rcases mem_search_iff.mp greatFound with ⟨greatRecord, greatStored, greatHolds⟩
    rcases holds_compare_iff.mp smallHolds with ⟨_, smallKey, smallKeyed, smallRelated⟩
    rcases holds_compare_iff.mp greatHolds with ⟨_, greatKey, greatKeyed, greatRelated⟩
    exact Records.standsBefore_sortedBy
      ((Records.keyOf_eq smallStored).trans smallKeyed)
      ((Records.keyOf_eq greatStored).trans greatKeyed)
      (Relation.lt_of_rank_lt before (Relation.holds_iff_relates.mp smallRelated)
        (Relation.holds_iff_relates.mp greatRelated))

/-! Volumes, of which one has no number -/

/-- An entry that sorts as a number and whose name needs quotes. -/
def volume : Entry := .string "vol<" .asNumber

def volumeRecord (text : String) : Record :=
  Record.empty.withEntry volume.name (.string text)

def shelf : Records :=
  Dict.ofList ([("a", "none"), ("b", "12"), ("c", "05"), ("d", "4 of 9")].map fun (id, text) =>
    (id, volumeRecord text))

/-- What is found before, at and after 5. -/
theorem comparing_parts_shelf :
    (Configuration.find? (.ofEntries [volume]) volume.name = some volume ∧
      ofCommand? (.ofEntries [volume]) (comparing volume.name .less "5") =
        some (compare volume .less (SortKey.packInteger 5) "5")) ∧
      StandsBefore (shelf.sortedBy volume TagPool.empty false) "d" "c" ∧
      StandsBefore (shelf.sortedBy volume TagPool.empty true) "b" "c" := by
  have configured : Configuration.find? (.ofEntries [volume]) volume.name = some volume := by
    decide
  have encoded : SortKey.encodeText volume.sortingMethod "5" = some (SortKey.packInteger 5) := by
    decide +kernel
  have compiled : ∀ relation, ofCommand? (.ofEntries [volume])
      (comparing volume.name relation "5") =
        some (compare volume relation (SortKey.packInteger 5) "5") := fun relation =>
    (ofCommand?_comparing_eq_some_iff configured).mpr ⟨by decide, by decide, _, encoded, rfl⟩
  rcases comparing_parts_sortedBy configured (compiled .less) with ⟨query, asked, parts⟩
  have same : ∀ relation, query relation = compare volume relation (SortKey.packInteger 5) "5" :=
    fun relation => Option.some.inj ((asked relation).symm.trans (compiled relation))
  have ordered := (parts TagPool.empty).2.2 shelf
  refine ⟨⟨configured, compiled .less⟩, (ordered .less .equal (by decide) "d" ?_ "c" ?_).1,
    (ordered .equal .greater (by decide) "c" ?_ "b" ?_).2⟩
  all_goals
    rw [same]
    decide +kernel

end Query

end SealedCatalog
