import SealedCatalog.Proofs.Draft.Stored

/-! The check of a draft and of the record that it is finalized to. The record has the problems of
the draft, except that an exclusive entry loses its problem where the tags that the draft chooses
turn out to be one. -/

namespace SealedCatalog

namespace Indices

theorem length_sorted_le_one_iff {indices : List Nat} :
    (sorted indices).length ≤ 1 ↔ ∀ left ∈ indices, ∀ right ∈ indices, left = right := by
  have ascending := ascending_sorted indices
  have members := fun index => @mem_sorted indices index
  generalize sorted indices = listed at *
  match listed with
  | [] => simp [← members]
  | [index] => simp [← members]
  | first :: second :: rest =>
      have below : first < second := (List.pairwise_cons.mp ascending).1 second List.mem_cons_self
      have different : ¬ ∀ left ∈ indices, ∀ right ∈ indices, left = right := fun same =>
        below.ne (same first ((members first).mp (by simp)) second ((members second).mp (by simp)))
      exact iff_of_false (by simp) different

end Indices

namespace DraftValue

/-- The value is of tags, and these have one index in the pool. -/
def isOneTag (pool : TagPool) (entry : String) : DraftValue → Bool
  | tags (first :: rest) => (first.indexIn? pool entry).isSome &&
      rest.all fun tag => tag.indexIn? pool entry == first.indexIn? pool entry
  | _ => false

end DraftValue

/-- The problem is that of an exclusive entry whose tags in the draft are one in the pool. -/
def RecordProblem.isLifted (draft : Draft) (pool : TagPool) : RecordProblem → Bool
  | exclusive entry => (draft.entries.get? entry).any (DraftValue.isOneTag pool entry)
  | _ => false

namespace DraftValue

variable {pool : TagPool} {name : String}

/-- Tags have several indices unless they are one. -/
theorem one_lt_length_sorted_iff {chosen : List DraftTag} (nonempty : chosen ≠ [])
    (pooled : (tags chosen).IsPooled pool name) :
    1 < (Indices.sorted (chosen.filterMap (DraftTag.indexIn? pool name))).length ↔
      (tags chosen).isOneTag pool name = false := by
  cases chosen with
  | nil => exact absurd rfl nonempty
  | cons first rest =>
      have ⟨here, others⟩ := List.forall_mem_cons.mp pooled
      obtain ⟨index, found⟩ := Option.isSome_iff_exists.mp here
      rw [← not_le, Indices.length_sorted_le_one_iff, ← Bool.not_eq_true, not_iff_not, isOneTag,
        found, List.filterMap_cons_some found]
      simp only [Option.isSome_some, Bool.true_and, List.all_eq_true, beq_iff_eq]
      constructor
      · intro same tag member
        obtain ⟨other, otherFound⟩ := Option.isSome_iff_exists.mp (others tag member)
        have listed := List.mem_filterMap.mpr ⟨tag, member, otherFound⟩
        rw [otherFound, same other (List.mem_cons_of_mem _ listed) index List.mem_cons_self]
      · intro same
        have all : ∀ other ∈ index :: rest.filterMap (DraftTag.indexIn? pool name),
            other = index := by
          refine List.forall_mem_cons.mpr ⟨rfl, fun other member => ?_⟩
          obtain ⟨tag, inside, otherFound⟩ := List.mem_filterMap.mp member
          exact Option.some.inj (otherFound.symm.trans (same tag inside))
        exact fun left leftMember right rightMember =>
          (all left leftMember).trans (all right rightMember).symm

theorem one_lt_length_of_not_isOneTag {chosen : List DraftTag} (nonempty : chosen ≠ [])
    (pooled : (tags chosen).IsPooled pool name)
    (several : (tags chosen).isOneTag pool name = false) : 1 < chosen.length := by
  match chosen with
  | [] => exact absurd rfl nonempty
  | [tag] => simp [isOneTag, pooled tag List.mem_cons_self] at several
  | _ :: _ :: _ => simp

theorem problem?_tags (entry : Entry) (chosen : List DraftTag) : (tags chosen).problem? entry =
    if entry.isExclusive = true ∧ 1 < chosen.length then some (.exclusive entry.name) else none := by
  simp [problem?, overfills, sorts]

theorem filter_problem?_of_not_overfills {draft : Draft} {entry : Entry} {value : DraftValue}
    (few : value.overfills entry = false) :
    ((value.problem? entry).filter fun problem => !problem.isLifted draft pool) =
      value.problem? entry := by
  simp only [problem?, few, Bool.false_eq_true, if_false]
  split <;> rfl

/-- A value that is there has the same problem once it is stored, unless the problem is lifted. -/
theorem problem?_stored {draft : Draft} {entry : Entry} {drafted : DraftValue}
    (found : draft.entries.get? entry.name = some drafted) (present : drafted.isEmpty = false)
    (pooled : drafted.IsPooled pool entry.name) :
    (ofValue (drafted.stored pool entry.name)).problem? entry =
      (drafted.problem? entry).filter fun problem => !problem.isLifted draft pool := by
  cases drafted with
  | string text => exact (filter_problem?_of_not_overfills rfl).symm
  | rating score comment useComment =>
      have few : (rating score comment useComment).overfills entry = false := rfl
      exact (filter_problem?_of_not_overfills few).symm
  | tags chosen =>
      have nonempty : chosen ≠ [] := List.isEmpty_eq_false_iff.mp present
      have several := one_lt_length_sorted_iff nonempty pooled
      have lifted : (RecordProblem.exclusive entry.name).isLifted draft pool =
          (tags chosen).isOneTag pool entry.name := by
        rw [RecordProblem.isLifted, found, Option.any_some]
      show (tags ((Indices.sorted _).map .pooled)).problem? entry = _
      rw [problem?_tags, problem?_tags, List.length_map]
      cases one : (tags chosen).isOneTag pool entry.name with
      | true =>
          rw [if_neg (by simp [several, one])]
          split <;> simp [Option.filter_some, lifted, one]
      | false =>
          have many := one_lt_length_of_not_isOneTag nonempty pooled one
          simp only [several, one, many]
          split <;> simp [Option.filter_some, lifted, one]

end DraftValue

namespace Draft

variable {draft : Draft} {configuration : Configuration} {pool : TagPool}

/-- Each entry has the problem of the draft also with the record, unless it is lifted. -/
theorem draftProblem?_finalize {entry : Entry} (configured : entry ∈ configuration.entries) :
    entry.draftProblem?
        ((ofRecord (draft.finalize configuration pool).1).entries.get? entry.name) =
      (entry.draftProblem? (draft.entries.get? entry.name)).filter fun problem =>
        !problem.isLifted draft (draft.finalize configuration pool).2 := by
  rw [get?_ofRecord, get?_finalize, Option.map_map]
  have pooled := fun drafted => @isPooled_finalize draft configuration pool entry.name drafted
  generalize (draft.finalize configuration pool).2 = grown at *
  unfold Entry.draftProblem?
  cases fitting : (draft.entries.get? entry.name).filter fun value =>
      value.fits entry.kind && !value.isEmpty with
  | some drafted =>
      have ⟨found, sound⟩ := Option.filter_eq_some_iff.mp fitting
      have ⟨fits, present⟩ : drafted.fits entry.kind = true ∧ drafted.isEmpty = false := by
        simpa using sound
      have kept := kept?_eq_some_iff.mpr ⟨found, present, entry, configured, rfl, fits⟩
      have stays := (pooled drafted kept).isEmpty_stored
      have same := DraftValue.problem?_stored found present (pooled drafted kept)
      simp [kept, Option.filter_some, DraftValue.fits_ofValue_stored, fits,
        DraftValue.isEmpty_ofValue, stays, present, same]
  | none =>
      have absent : ((draft.kept? configuration.entries entry.name).map
          (DraftValue.ofValue ∘ (·.stored grown entry.name))).filter (fun value =>
            value.fits entry.kind && !value.isEmpty) = none := by
        cases kept : draft.kept? configuration.entries entry.name with
        | none => rfl
        | some drafted =>
            have ⟨found, present, _⟩ := kept?_eq_some_iff.mp kept
            have foreign : drafted.fits entry.kind = false := by
              simpa [found, Option.filter_some, present] using fitting
            simp [Option.filter_some, DraftValue.fits_ofValue_stored, foreign]
      rw [absent]
      cases entry.optional <;> rfl

/-- Finalizing keeps validity. The record has the problems of the draft in the same order, without
those of exclusive entries whose tags in the draft have one index in the pool by then. So a draft
without problems gives a record without problems. -/
theorem problems_finalize (draft : Draft) (configuration : Configuration) (pool : TagPool)
    (imageSupplied : Bool) :
    (ofRecord (draft.finalize configuration pool).1).problems imageSupplied configuration =
        ((draft.problems imageSupplied configuration).filter fun problem =>
          !problem.isLifted draft (draft.finalize configuration pool).2) ∧
      (draft.problems imageSupplied configuration = [] →
        (ofRecord (draft.finalize configuration pool).1).problems imageSupplied configuration =
          []) := by
  have filtered : (ofRecord (draft.finalize configuration pool).1).problems imageSupplied
      configuration = (draft.problems imageSupplied configuration).filter fun problem =>
        !problem.isLifted draft (draft.finalize configuration pool).2 := by
    rw [problems, problems, List.filter_append, List.filter_filterMap]
    congr 1
    · show (if configuration.hasImages && draft.image.isNone && !imageSupplied then _ else _) = _
      split <;> rfl
    · exact List.filterMap_congr fun entry configured => draftProblem?_finalize configured
  exact ⟨filtered, fun sound => by rw [filtered, sound, List.filter_nil]⟩

/-- A genre that is chosen by its index and typed as well is two tags in the draft and one in the
record. -/
example :
    let configuration := Configuration.ofEntries [.tag "genre" .asString true]
    let draft : Draft := ⟨none, Dict.ofList [("genre", .tags [.pooled 0, .typed "jazz"])]⟩
    draft.problems false configuration = [.exclusive "genre"] ∧
      (draft.finalize configuration (.ofEntries [("genre", ["jazz"])])).1.problems
        configuration = [] := by decide

end Draft

end SealedCatalog
