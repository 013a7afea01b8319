import SealedCatalog.Proofs.Draft.Additions
import SealedCatalog.Proofs.Import.Agreement

/-! What an import does to the pool that it changes in place. All entries are loaded, and the image
is asked for, before the first tag is registered, so that a failed import leaves the pool as it was.
An import that succeeds appends the new tags of the document, and the record lists where the tags
stand. -/

namespace SealedCatalog

/-! ## Imports in place -/

/-- Computations that change a pool in place. A failed one leaves the pool as it is by then. -/
abbrev Registering := ExceptT ImportError (StateM TagPool)

namespace Registering

/-- What a computation gives, and the pool that it leaves. -/
def outcome {α : Type} (computation : Registering α) (pool : TagPool) :
    Except ImportError α × TagPool :=
  computation.run pool

variable {α β : Type} (pool : TagPool)

theorem outcome_pure (value : α) : outcome (pure value) pool = (.ok value, pool) := rfl

theorem outcome_get : outcome get pool = (.ok pool, pool) := rfl

theorem outcome_modifyGet (change : TagPool → α × TagPool) :
    outcome (modifyGet change) pool = (.ok (change pool).1, (change pool).2) := rfl

theorem outcome_lift (result : Except ImportError α) :
    outcome (liftM result) pool = (result, pool) := rfl

theorem outcome_bind (first : Registering α) (next : α → Registering β) :
    outcome (first >>= next) pool =
      match outcome first pool with
      | (.error reason, after) => (.error reason, after)
      | (.ok value, after) => outcome (next value) after := by
  simp only [outcome, ExceptT.run, bind, ExceptT.bind, ExceptT.mk, StateT.bind]
  rcases first pool with ⟨result, after⟩
  cases result <;> rfl

/-- Computations that leave the pool as it is do so one after the other. -/
theorem outcome_bind_of_unchanged {pool : TagPool} {first : Registering α}
    {next : α → Registering β} {result : Except ImportError α} {after : α → Except ImportError β}
    (unchanged : outcome first pool = (result, pool))
    (still : ∀ value, outcome (next value) pool = (after value, pool)) :
    outcome (first >>= next) pool = (result >>= after, pool) := by
  rw [outcome_bind, unchanged]
  cases result with
  | error reason => rfl
  | ok value => exact still value

end Registering

open Registering (outcome outcome_bind outcome_pure outcome_get outcome_lift outcome_modifyGet
  outcome_bind_of_unchanged)

namespace Import

/-- Load the entries under the pool as it is at each of them. -/
def loadAllInPlace (fields : List (String × Json)) :
    List Entry → Registering (List (String × Loaded))
  | [] => return []
  | entry :: rest =>
      match Dict.findField entry.name fields with
      | none => do
          requirePresent entry true
          loadAllInPlace fields rest
      | some document => do
          let loaded ← loadEntry entry (← get) document
          return (entry.name, loaded) :: (← loadAllInPlace fields rest)

/-- Store what is loaded, and register the tags of each entry at once. -/
def storeInPlace (values : Dict EntryValue) : List (String × Loaded) → Registering (Dict EntryValue)
  | [] => return values
  | (name, .value value) :: rest => storeInPlace (Record.keep values name value) rest
  | (name, .tags texts) :: rest => do
      let indices ← modifyGet fun pool => (pool.register name texts).swap
      storeInPlace (Record.keep values name (.ofIndices indices)) rest

end Import

/-- Import the record that a text describes into the pool. -/
def importInPlace (configuration : Configuration) (text : String) (imageSupplied : Bool) :
    Registering Record :=
  match Json.parse? text with
  | some (.object fields) => do
      let loaded ← Import.loadAllInPlace fields configuration.entries
      if configuration.hasImages && !imageSupplied then
        throw .imageMissing
      return ⟨none, ← Import.storeInPlace Dict.empty loaded⟩
  | some _ => throw .notObject
  | none => throw .invalidJson

namespace Import

theorem outcome_loadAllInPlace (fields : List (String × Json)) (entries : List Entry)
    (pool : TagPool) :
    outcome (loadAllInPlace fields entries) pool = (loadAll fields pool entries, pool) := by
  induction entries with
  | nil => rfl
  | cons entry rest induction =>
      rw [loadAllInPlace, loadAll]
      cases Dict.findField entry.name fields with
      | none => exact outcome_bind_of_unchanged (outcome_lift pool _) fun _ => induction
      | some document =>
          refine outcome_bind_of_unchanged (outcome_bind_of_unchanged (outcome_get pool)
            fun known => outcome_lift pool (loadEntry entry known document)) fun loaded => ?_
          exact outcome_bind_of_unchanged induction fun rests => outcome_pure pool _

theorem outcome_storeInPlace (values : Dict EntryValue) (loaded : List (String × Loaded))
    (pool : TagPool) : outcome (storeInPlace values loaded) pool =
      (.ok (store pool values loaded).2, (store pool values loaded).1) := by
  induction loaded generalizing pool values with
  | nil => rfl
  | cons head rest induction =>
      rcases head with ⟨name, value | texts⟩
      · exact induction _ _
      · simp only [storeInPlace, outcome_bind, outcome_modifyGet, induction]
        rfl

end Import

/-- An import in place gives the record that is imported, and leaves the pool with its tags, or the
pool as it was if the import fails. -/
theorem outcome_importInPlace (configuration : Configuration) (text : String)
    (imageSupplied : Bool) (pool : TagPool) :
    outcome (importInPlace configuration text imageSupplied) pool =
      match importRecord configuration text pool imageSupplied with
      | .error reason => (.error reason, pool)
      | .ok (record, extended) => (.ok record, extended) := by
  unfold importInPlace importRecord
  rcases Json.parse? text with _ | document
  · rfl
  cases document with
  | object fields =>
      simp only [outcome_bind, Import.outcome_loadAllInPlace]
      cases Import.loadAll fields pool configuration.entries with
      | error reason => rfl
      | ok loaded =>
          cases configuration.hasImages && !imageSupplied with
          | true => rfl
          | false =>
              show outcome (Import.storeInPlace Dict.empty loaded >>= _) pool = _
              rw [outcome_bind, Import.outcome_storeInPlace]
              rfl
  | _ => rfl

/-! ## Tags of documents -/

/-- The texts that the document lists for an entry. -/
def Import.dumpedTags (fields : List (String × Json)) (name : String) : List String :=
  match Dict.findField name fields with
  | some (.array items) => items.filterMap Json.string?
  | _ => []

/-- The indices ascend, and are those at which the tags come up first among the known ones. -/
structure TagPool.AreFirstIndices (known tags : List String) (indices : List Nat) : Prop where
  ascending : indices.Pairwise (· < ·)
  present : ∀ tag ∈ tags, tag ∈ known
  mem_iff : ∀ index, index ∈ indices ↔ ∃ tag ∈ tags, known.idxOf tag = index

theorem Import.filterMap_string?_string (texts : List String) :
    (texts.map Json.string).filterMap Json.string? = texts := by
  rw [List.filterMap_map]
  exact List.filterMap_some

theorem TagPool.position_eq_some_iff {pool : TagPool} {entry tag : String} {index : Nat} :
    pool.position entry tag = some index ↔
      tag ∈ pool.tags entry ∧ (pool.tags entry).idxOf tag = index := by
  rw [position, List.findIdx?_eq_some_iff_findIdx_eq, ← List.idxOf_lt_length_iff]
  refine and_congr_left fun same => ?_
  subst same
  rfl

/-- The positions of tags that the pool has, in order, are their first indices. -/
theorem TagPool.areFirstIndices_iff {pool : TagPool} {entry : String} {tags : List String}
    (present : ∀ tag ∈ tags, tag ∈ pool.tags entry) {indices : List Nat} :
    AreFirstIndices (pool.tags entry) tags indices ↔
      Indices.sorted (tags.filterMap (pool.position entry)) = indices := by
  have listed : ∀ index, index ∈ Indices.sorted (tags.filterMap (pool.position entry)) ↔
      ∃ tag ∈ tags, (pool.tags entry).idxOf tag = index := by
    intro index
    rw [Indices.mem_sorted, List.mem_filterMap]
    refine exists_congr fun tag => and_congr_right fun member => ?_
    rw [position_eq_some_iff, and_iff_right (present tag member)]
  constructor
  · intro first
    exact (Indices.ascending_sorted _).eq_of_mem_iff first.ascending fun index =>
      (listed index).trans (first.mem_iff index).symm
  · rintro rfl
    exact ⟨Indices.ascending_sorted _, present, listed⟩

namespace Draft.Mirrors

variable {draft : Draft} {configuration : Configuration} {fields : List (String × Json)}
  {name : String}

/-- Under the name of a tag entry the document has nothing, or a list of texts that the draft has
as tags. -/
theorem tags_of_hasTagEntry (mirrors : draft.Mirrors configuration fields)
    (configured : HasTagEntry configuration.entries name) :
    (Dict.findField name fields = none ∧ Import.dumpedTags fields name = [] ∧
        draft.entries.get? name = none) ∨
      Dict.findField name fields = some (.array ((Import.dumpedTags fields name).map .string)) ∧
        draft.entries.get? name =
          some (.tags ((Import.dumpedTags fields name).map .typed)) := by
  rcases configured with ⟨entry, member, rfl, isTag⟩
  have described := mirrors.entries entry member
  unfold Import.dumpedTags
  generalize Dict.findField entry.name fields = found at described ⊢
  generalize draft.entries.get? entry.name = drafted at described ⊢
  cases described with
  | none => exact .inl ⟨rfl, rfl, rfl⟩
  | some describes =>
      cases describes with
      | tags kind named =>
          refine .inr ?_
          simp only [Import.filterMap_string?_string, and_self]
      | string kind text => simp [Entry.entryType, kind, EntryKind.entryType] at isTag
      | rating kind scored bounded commented =>
          simp [Entry.entryType, kind, EntryKind.entryType] at isTag

theorem typed_eq (mirrors : draft.Mirrors configuration fields)
    (configured : HasTagEntry configuration.entries name) :
    draft.typed name = Import.dumpedTags fields name := by
  rcases mirrors.tags_of_hasTagEntry configured with ⟨-, nothing, absent⟩ | ⟨-, found⟩
  · rw [Draft.typed, absent, nothing, Option.map_none, Option.getD_none]
  · rw [Draft.typed_eq_of_get? found, DraftValue.typed, Import.filterMap_text?_typed]

theorem kept?_eq (mirrors : draft.Mirrors configuration fields)
    (configured : HasTagEntry configuration.entries name) :
    draft.kept? configuration.entries name =
      if Import.dumpedTags fields name = [] then none
      else some (.tags ((Import.dumpedTags fields name).map .typed)) := by
  rcases mirrors.tags_of_hasTagEntry configured with ⟨-, nothing, absent⟩ | ⟨-, found⟩
  · rw [Draft.kept?, absent, if_pos nothing, Option.filter_none]
  · split
    next nothing => rw [Draft.kept?, found, nothing]; rfl
    next some =>
      rcases configured with ⟨entry, member, named, isTag⟩
      have present : (DraftValue.tags ((Import.dumpedTags fields name).map .typed)).isEmpty =
          false := by simpa [DraftValue.isEmpty] using some
      exact Draft.kept?_eq_some_iff.mpr
        ⟨found, present, entry, member, named, DraftValue.fits_tags_iff.mpr isTag⟩

/-- The record has the positions of the tags of the document under the name of a tag entry. -/
theorem get?_finalize_of_hasTagEntry (mirrors : draft.Mirrors configuration fields)
    (configured : HasTagEntry configuration.entries name) (pool : TagPool) :
    (draft.finalize configuration pool).1.get? name =
      if Import.dumpedTags fields name = [] then none
      else some (.ofIndices ((Import.dumpedTags fields name).filterMap
        ((draft.finalize configuration pool).2.position name))) := by
  rw [Draft.get?_finalize, mirrors.kept?_eq configured]
  split
  · rfl
  · rw [Option.map_some, DraftValue.stored, List.filterMap_map]
    rfl

end Draft.Mirrors

/-- Only tag entries keep tags. -/
theorem Draft.hasTagEntry_of_kept? {draft : Draft} {entries : List Entry} {name : String}
    {chosen : List DraftTag} (kept : draft.kept? entries name = some (.tags chosen)) :
    HasTagEntry entries name := by
  rcases Draft.kept?_eq_some_iff.mp kept with ⟨-, -, entry, member, named, fits⟩
  exact ⟨entry, member, named, DraftValue.fits_tags_iff.mp fits⟩

/-! ## Accepted imports -/

/-- What an accepted import of the fields does to the pool, and what the record has of the tags. -/
structure Import.Registers (configuration : Configuration) (fields : List (String × Json))
    (pool : TagPool) (record : Record) (after : TagPool) : Prop where
  /-- What the document has for a tag entry is a list of texts. -/
  listed : ∀ name, HasTagEntry configuration.entries name →
    ∀ document ∈ Dict.findField name fields,
      document = .array ((dumpedTags fields name).map .string)
  /-- The new tags follow the old ones, in the order in which they come up first and each once. -/
  appended : ∀ name, HasTagEntry configuration.entries name → after.tags name = pool.tags name ++
    ((dumpedTags fields name).filter fun tag => tag ∉ pool.tags name).eraseDups
  others : ∀ name, ¬ HasTagEntry configuration.entries name →
    after.pools.get? name = pool.pools.get? name
  stored : ∀ name indices, record.get? name = some (.tags indices) ↔
    HasTagEntry configuration.entries name ∧ dumpedTags fields name ≠ [] ∧
      TagPool.AreFirstIndices (after.tags name) (dumpedTags fields name) indices

namespace Draft.Mirrors

variable {draft : Draft} {configuration : Configuration} {fields : List (String × Json)}

theorem registers (mirrors : draft.Mirrors configuration fields) (pool : TagPool) :
    Import.Registers configuration fields pool (draft.finalize configuration pool).1
      (draft.finalize configuration pool).2 where
  listed name configured document found := by
    rcases mirrors.tags_of_hasTagEntry configured with ⟨absent, -⟩ | ⟨listed, -⟩
    · rw [absent] at found
      cases found
    · exact (Option.some.inj (listed.symm.trans found)).symm
  appended name configured := by
    rw [Draft.tags_finalize draft pool configured, mirrors.typed_eq configured, TagPool.additions]
  others name unconfigured := by
    rw [Draft.get?_pools_finalize, if_neg fun both => unconfigured both.1]
  stored name indices := by
    by_cases configured : HasTagEntry configuration.entries name
    case neg =>
      refine iff_of_false (fun stored => ?_) fun both => configured both.1
      obtain ⟨drafted, kept, same⟩ :=
        Option.map_eq_some_iff.mp ((draft.get?_finalize configuration pool name).symm.trans stored)
      cases drafted with
      | string text | rating score comment useComment => cases same
      | tags chosen => exact configured (Draft.hasTagEntry_of_kept? kept)
    case pos =>
      have present : ∀ tag ∈ Import.dumpedTags fields name,
          tag ∈ (draft.finalize configuration pool).2.tags name := by
        rw [Draft.tags_finalize draft pool configured, mirrors.typed_eq configured]
        exact fun tag => TagPool.mem_append_additions
      rw [mirrors.get?_finalize_of_hasTagEntry configured, TagPool.areFirstIndices_iff present,
        and_iff_right configured]
      split
      next nothing => simp [nothing]
      next some => simp [some, EntryValue.ofIndices]

end Draft.Mirrors

/-- An import changes the pool only once the record is accepted. A failed import leaves the pool
that it was given. An accepted one appends the tags of the document that are new to the tags of
their entries, and the record has the first indices of the tags. -/
theorem importInPlace_registers (configuration : Configuration) (text : String)
    (imageSupplied : Bool) (pool : TagPool) :
    match (importInPlace configuration text imageSupplied).outcome pool with
    | (.error reason, after) =>
        importRecord configuration text pool imageSupplied = .error reason ∧ after = pool
    | (.ok record, after) =>
        importRecord configuration text pool imageSupplied = .ok (record, after) ∧
          ∃ fields, Json.parse? text = some (.object fields) ∧
            Import.Registers configuration fields pool record after := by
  rw [outcome_importInPlace]
  cases imported : importRecord configuration text pool imageSupplied with
  | error reason => exact ⟨rfl, rfl⟩
  | ok result =>
      rcases result with ⟨record, after⟩
      obtain ⟨fields, draft, parsed, mirrors, -, finalized⟩ :=
        exists_mirrors_of_importRecord imported
      have registers := mirrors.registers pool
      rw [finalized] at registers
      exact ⟨rfl, fields, parsed, registers⟩

end SealedCatalog
