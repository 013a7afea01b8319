import Mathlib.Data.List.Sort
import SealedCatalog.Draft.Check
import SealedCatalog.Proofs.Draft

/-! What finalizing stores, said without the order in which entries are settled. Under each name the
record holds the value of the draft with its tags as indices into the resulting pool, if an entry of
that name and type is configured and the value does not count as none. -/

namespace SealedCatalog

/-- Ascending lists of the same members are the same. -/
theorem Indices.sorted_congr {left right : List Nat}
    (same : ∀ index, index ∈ left ↔ index ∈ right) : sorted left = sorted right :=
  (ascending_sorted left).eq_of_mem_iff (ascending_sorted right) fun index => by
    rw [mem_sorted, mem_sorted, same]

theorem Indices.sorted_of_ascending {indices : List Nat}
    (ascending : indices.Pairwise (· < ·)) : sorted indices = indices :=
  (ascending_sorted indices).eq_of_mem_iff ascending fun _ => mem_sorted

/-! ## Settled values -/

/-- The index that a tag has in the pool. -/
def DraftTag.indexIn? (pool : TagPool) (entry : String) : DraftTag → Option Nat
  | pooled index => some index
  | typed text => pool.position entry text

namespace DraftValue

/-- The value as it is stored when the pool has all its tags. -/
def stored (pool : TagPool) (entry : String) : DraftValue → EntryValue
  | string text => .string text
  | tags chosen => .ofIndices (chosen.filterMap (DraftTag.indexIn? pool entry))
  | rating score comment useComment => .rating score (if useComment then some comment else none)

/-- The pool has all tags of the value that are given by their texts. -/
def IsPooled (pool : TagPool) (entry : String) : DraftValue → Prop
  | tags chosen => ∀ tag ∈ chosen, (tag.indexIn? pool entry).isSome = true
  | _ => True

variable {pool extended : TagPool} {entry : String} {drafted : DraftValue}

theorem IsPooled.stored_eq (pooled : drafted.IsPooled pool entry)
    (grown : pool.Extends extended) : drafted.stored extended entry = drafted.stored pool entry := by
  cases drafted with
  | string text => rfl
  | rating score comment useComment => rfl
  | tags chosen =>
      have same : ∀ tag ∈ chosen, tag.indexIn? extended entry = tag.indexIn? pool entry := by
        intro tag member
        cases tag with
        | pooled index => rfl
        | typed text =>
            obtain ⟨index, found⟩ := Option.isSome_iff_exists.mp (pooled _ member)
            exact (grown.position_eq found).trans found.symm
      rw [stored, stored, List.filterMap_congr same]

theorem IsPooled.mono (pooled : drafted.IsPooled pool entry) (grown : pool.Extends extended) :
    drafted.IsPooled extended entry := by
  cases drafted with
  | string text => trivial
  | rating score comment useComment => trivial
  | tags chosen =>
      intro tag member
      cases tag with
      | pooled index => rfl
      | typed text =>
          obtain ⟨index, found⟩ := Option.isSome_iff_exists.mp (pooled _ member)
          exact Option.isSome_iff_exists.mpr ⟨index, grown.position_eq found⟩

theorem IsPooled.isEmpty_stored (pooled : drafted.IsPooled pool entry) :
    (drafted.stored pool entry).isEmpty = drafted.isEmpty := by
  cases drafted with
  | string text => rfl
  | rating score comment useComment => rfl
  | tags chosen =>
      cases chosen with
      | nil => rfl
      | cons tag rest =>
          obtain ⟨index, found⟩ := Option.isSome_iff_exists.mp (pooled tag List.mem_cons_self)
          have listed : index ∈ (tag :: rest).filterMap (DraftTag.indexIn? pool entry) :=
            List.mem_filterMap.mpr ⟨tag, List.mem_cons_self, found⟩
          exact List.isEmpty_eq_false_iff.mpr (List.ne_nil_of_mem (Indices.mem_sorted.mpr listed))

theorem isEmpty_ofValue (value : EntryValue) : (ofValue value).isEmpty = value.isEmpty := by
  cases value with
  | string text => rfl
  | tags indices => exact List.isEmpty_map
  | rating score comment => rfl

theorem fits_ofValue_stored (kind : EntryKind) (pool : TagPool) (entry : String)
    (drafted : DraftValue) : (ofValue (drafted.stored pool entry)).fits kind = drafted.fits kind := by
  cases drafted <;> cases kind <;> rfl

theorem typed_mem_iff {chosen : List DraftTag} {text : String} :
    .typed text ∈ chosen ↔ text ∈ chosen.filterMap DraftTag.text? := by
  rw [List.mem_filterMap]
  constructor
  · exact fun member => ⟨_, member, rfl⟩
  · rintro ⟨tag, member, is⟩
    cases tag <;> cases is
    exact member

theorem pooled_mem_iff {chosen : List DraftTag} {index : Nat} :
    .pooled index ∈ chosen ↔ index ∈ chosen.filterMap DraftTag.index? := by
  rw [List.mem_filterMap]
  constructor
  · exact fun member => ⟨_, member, rfl⟩
  · rintro ⟨tag, member, is⟩
    cases tag <;> cases is
    exact member

/-- The indices that registering gives, and those that were chosen, are the indices of all tags. -/
theorem mem_registered_iff {chosen : List DraftTag} {index : Nat} :
    index ∈ (pool.register entry (chosen.filterMap DraftTag.text?)).2 ++
        chosen.filterMap DraftTag.index? ↔
      index ∈ chosen.filterMap (DraftTag.indexIn?
        (pool.register entry (chosen.filterMap DraftTag.text?)).1 entry) := by
  rw [List.mem_append, TagPool.mem_register_iff,
    List.mem_filterMap (f := DraftTag.indexIn? _ entry)]
  constructor
  · rintro (⟨text, member, found⟩ | member)
    · exact ⟨_, typed_mem_iff.mpr member, found⟩
    · exact ⟨_, pooled_mem_iff.mpr member, rfl⟩
  · rintro ⟨tag, member, found⟩
    cases tag with
    | typed text => exact .inl ⟨text, typed_mem_iff.mp member, found⟩
    | pooled other =>
        cases found
        exact .inr (pooled_mem_iff.mp member)

/-- A value that fits is stored as it is in the pool that it leaves, which has all its tags. -/
theorem settle_of_fits {entry : Entry} (fits : drafted.fits entry.kind = true) (pool : TagPool) :
    (drafted.settle entry pool).2 =
        some (drafted.stored (drafted.settle entry pool).1 entry.name) ∧
      drafted.IsPooled (drafted.settle entry pool).1 entry.name := by
  rcases entry with ⟨name, method, optional, kind⟩
  cases kind with
  | string unique =>
      cases drafted with
      | string text => exact ⟨rfl, trivial⟩
      | tags chosen | rating score comment useComment => cases fits
  | tag exclusive =>
      cases drafted with
      | tags chosen =>
          refine ⟨congrArg (some ∘ EntryValue.tags) (Indices.sorted_congr fun _ =>
            mem_registered_iff), fun tag member => ?_⟩
          cases tag with
          | pooled index => rfl
          | typed text =>
              have registered := pool.exists_position_register name (typed_mem_iff.mp member)
              exact Option.isSome_iff_exists.mpr registered
      | string text | rating score comment useComment => cases fits
  | rating maximum hints =>
      cases drafted with
      | rating score comment useComment => exact ⟨rfl, trivial⟩
      | string text | tags chosen => cases fits

theorem settle_of_not_fits {entry : Entry} (foreign : drafted.fits entry.kind = false)
    (pool : TagPool) : drafted.settle entry pool = (pool, none) := by
  rcases entry with ⟨name, method, optional, kind⟩
  cases kind <;> cases drafted <;> first
    | rfl
    | cases foreign

end DraftValue

/-! ## Settled entries -/

theorem Record.get?_keep (values : Dict EntryValue) (entry name : String) (value : EntryValue) :
    (Record.keep values entry value).get? name =
      if entry = name ∧ value.isEmpty = false then some value else values.get? name := by
  unfold keep
  cases value.isEmpty with
  | true => simp
  | false =>
      by_cases same : entry = name
      · simp [same]
      · simp [same, Dict.get?_insert_of_ne _ same]

namespace Draft

variable {draft : Draft} {pool : TagPool} {values : Dict EntryValue} {entries : List Entry}
  {name : String}

theorem get?_ofRecord (record : Record) (name : String) :
    (ofRecord record).entries.get? name = (record.get? name).map DraftValue.ofValue :=
  Dict.get?_mapValues _ _ _

/-- The value of the draft that is kept under a name. It does not count as none, and among the
entries is one of that name and of the value's type. -/
def kept? (draft : Draft) (entries : List Entry) (name : String) : Option DraftValue :=
  (draft.entries.get? name).filter fun drafted =>
    !drafted.isEmpty && entries.any fun entry => entry.name == name && drafted.fits entry.kind

theorem kept?_eq_some_iff {drafted : DraftValue} : draft.kept? entries name = some drafted ↔
    draft.entries.get? name = some drafted ∧ drafted.isEmpty = false ∧
      ∃ entry ∈ entries, entry.name = name ∧ drafted.fits entry.kind = true := by
  rw [kept?, Option.filter_eq_some_iff]
  simp only [Bool.and_eq_true, Bool.not_eq_true', List.any_eq_true, beq_iff_eq]

/-- An entry keeps nothing that is not kept for the others, if it has another name or type than the
value or the value counts as none. -/
theorem kept?_cons_of_not {entry : Entry} (rest : List Entry)
    (dropped : ∀ drafted ∈ draft.entries.get? name, entry.name = name →
      drafted.fits entry.kind = true → drafted.isEmpty = true) :
    draft.kept? (entry :: rest) name = draft.kept? rest name := by
  refine Option.ext fun drafted => ?_
  simp only [kept?_eq_some_iff, List.exists_mem_cons_iff]
  refine and_congr_right fun found => and_congr_right fun present => or_iff_right fun here => ?_
  simp [dropped drafted found here.1 here.2] at present

theorem kept?_cons_of_fits {entry : Entry} (rest : List Entry) {drafted : DraftValue}
    (found : draft.entries.get? entry.name = some drafted)
    (fits : drafted.fits entry.kind = true) : draft.kept? (entry :: rest) name =
      if entry.name = name ∧ drafted.isEmpty = false then some drafted
      else draft.kept? rest name := by
  split
  next here =>
    rcases here with ⟨rfl, present⟩
    exact kept?_eq_some_iff.mpr ⟨found, present, entry, List.mem_cons_self, rfl, fits⟩
  next elsewhere =>
    refine kept?_cons_of_not rest fun other otherFound same _ => ?_
    have one : other = drafted := Option.some.inj (otherFound.symm.trans (same ▸ found))
    simpa [one, same] using elsewhere

/-- An entry for which the draft has a value of its type settles that value, and any other entry
is passed over. -/
theorem settleEntries_cons_cases (draft : Draft) (pool : TagPool) (values : Dict EntryValue)
    (entry : Entry) (rest : List Entry) :
    (∃ drafted, draft.entries.get? entry.name = some drafted ∧ drafted.fits entry.kind = true ∧
        draft.settleEntries pool values (entry :: rest) =
          draft.settleEntries (drafted.settle entry pool).1
            (Record.keep values entry.name
              (drafted.stored (drafted.settle entry pool).1 entry.name)) rest) ∨
      (∀ drafted ∈ draft.entries.get? entry.name, drafted.fits entry.kind = false) ∧
        draft.settleEntries pool values (entry :: rest) = draft.settleEntries pool values rest := by
  simp only [settleEntries]
  cases found : draft.entries.get? entry.name with
  | none => exact .inr ⟨by simp, rfl⟩
  | some drafted =>
      cases fits : drafted.fits entry.kind with
      | false =>
          refine .inr ⟨fun other same => Option.some.inj same ▸ fits, ?_⟩
          simp only [DraftValue.settle_of_not_fits fits]
      | true =>
          refine .inl ⟨drafted, rfl, fits, ?_⟩
          have settled := (DraftValue.settle_of_fits fits pool).1
          dsimp only
          generalize drafted.settle entry pool = step at *
          rcases step with ⟨extended, value⟩
          obtain rfl : value = some (drafted.stored extended entry.name) := settled
          rfl

/-- What is kept under a name is there at the end, and all else is as it was. Entries of one name
store the same value, since a tag keeps its index once it has one. -/
theorem get?_settleEntries : (draft.settleEntries pool values entries).2.get? name =
      ((draft.kept? entries name).map (·.stored (draft.settleEntries pool values entries).1 name)).or
        (values.get? name) ∧
    ∀ drafted ∈ draft.kept? entries name,
      drafted.IsPooled (draft.settleEntries pool values entries).1 name := by
  induction entries generalizing pool values with
  | nil =>
      have notKept : draft.kept? [] name = none := Option.eq_none_iff_forall_ne_some.mpr
        fun drafted kept => by simp [kept?_eq_some_iff] at kept
      simp [notKept, settleEntries]
  | cons entry rest induction =>
      rcases draft.settleEntries_cons_cases pool values entry rest with
        ⟨drafted, found, fits, step⟩ | ⟨foreign, step⟩
      case inr =>
        rw [step, kept?_cons_of_not rest fun drafted found same fits => by
          simp [foreign drafted (same ▸ found)] at fits]
        exact induction
      case inl =>
        have pooled := (DraftValue.settle_of_fits fits pool).2
        rw [step]
        generalize (drafted.settle entry pool).1 = extended at pooled
        have grown := (draft.grows_settleEntries extended
          (Record.keep values entry.name (drafted.stored extended entry.name)) rest).appended
        have ⟨run, runPooled⟩ := @induction extended
          (Record.keep values entry.name (drafted.stored extended entry.name))
        generalize draft.settleEntries extended _ rest = final at *
        rw [run, Record.get?_keep, pooled.isEmpty_stored, kept?_cons_of_fits rest found fits]
        split
        next here =>
          rcases here with ⟨rfl, _⟩
          rw [← pooled.stored_eq grown]
          refine ⟨?_, by simpa using pooled.mono grown⟩
          -- An entry further on may have the same name, and then it keeps the same value.
          cases later : draft.kept? rest entry.name with
          | none => rfl
          | some other =>
              have same := (kept?_eq_some_iff.mp later).1.symm.trans found
              simp [Option.some.inj same]
        next elsewhere => exact ⟨rfl, runPooled⟩

/-- The record that a draft is finalized to, by the pool that it leaves. -/
theorem get?_finalize (draft : Draft) (configuration : Configuration) (pool : TagPool)
    (name : String) : (draft.finalize configuration pool).1.get? name =
      (draft.kept? configuration.entries name).map
        (·.stored (draft.finalize configuration pool).2 name) :=
  get?_settleEntries.1.trans Option.or_none

theorem isPooled_finalize (draft : Draft) (configuration : Configuration) (pool : TagPool)
    {name : String} {drafted : DraftValue}
    (kept : draft.kept? configuration.entries name = some drafted) :
    drafted.IsPooled (draft.finalize configuration pool).2 name :=
  get?_settleEntries.2 drafted kept

end Draft

end SealedCatalog
