import SealedCatalog.Proofs.Codec.RoundTrip
import SealedCatalog.Proofs.Draft
import SealedCatalog.Proofs.Import.Agreement

/-! Where the texts of an imported record come from. Each text of the record, and each text that the
pool has after the import, stood in the document, names an entry, or was in the pool before. -/

namespace SealedCatalog

/-- The texts that finalizing the value may store. A comment that is not in use is none. -/
def DraftValue.texts : DraftValue → List String
  | string text => [text]
  | tags chosen => chosen.filterMap DraftTag.text?
  | rating _ comment useComment => if useComment then [comment] else []

namespace TagPool

theorem mem_of_mem_enrollAll {known added : List String} {text : String}
    (member : text ∈ (enrollAll known added).1) : text ∈ known ∨ text ∈ added := by
  induction added generalizing known with
  | nil => exact .inl member
  | cons tag rest induction =>
      rcases induction member with enrolled | later
      · split at enrolled
        · exact .inl enrolled
        · rcases List.mem_append.mp enrolled with before | here
          · exact .inl before
          · exact .inr (List.mem_singleton.mp here ▸ List.mem_cons_self)
      · exact .inr (List.mem_cons_of_mem _ later)

theorem mem_texts_of_mem_tags {pool : TagPool} {entry text : String}
    (member : text ∈ pool.tags entry) : text ∈ pool.texts := by
  unfold tags at member
  cases found : pool.pools.get? entry with
  | none =>
      rw [found] at member
      cases member
  | some known =>
      rw [found] at member
      exact List.mem_flatMap.mpr
        ⟨(entry, known), Dict.get?_eq_some_iff.mp found, List.mem_cons_of_mem _ member⟩

theorem mem_texts_register {pool : TagPool} {entry text : String} {added : List String}
    (member : text ∈ (pool.register entry added).1.texts) :
    text ∈ pool.texts ∨ text = entry ∨ text ∈ added := by
  unfold register at member
  split at member
  · exact .inl member
  · rcases List.mem_flatMap.mp member with ⟨field, stored, inside⟩
    rcases Dict.mem_insertField stored with rfl | kept
    · rcases List.mem_cons.mp inside with rfl | tag
      · exact .inr (.inl rfl)
      · rcases mem_of_mem_enrollAll tag with known | new
        · exact .inl (mem_texts_of_mem_tags known)
        · exact .inr (.inr new)
    · exact .inl (List.mem_flatMap.mpr ⟨field, kept, inside⟩)

end TagPool

namespace DraftValue

variable {entry : Entry} {pool : TagPool} {value : DraftValue}

theorem mem_texts_settle {text : String} (member : text ∈ (value.settle entry pool).1.texts) :
    text ∈ pool.texts ∨ text = entry.name ∨ text ∈ value.texts := by
  unfold settle at member
  split at member
  next => exact .inl member
  next => exact TagPool.mem_texts_register member
  next => exact .inl member
  next => exact .inl member

theorem mem_texts_of_settle {stored : EntryValue}
    (settled : (value.settle entry pool).2 = some stored) {text : String}
    (member : text ∈ stored.texts) : text ∈ value.texts := by
  unfold settle at settled
  split at settled
  next =>
    cases settled
    exact member
  next =>
    cases settled
    cases member
  next score comment useComment _ =>
    cases settled
    cases useComment with
    | false => cases member
    | true => exact member
  next => cases settled

end DraftValue

section Property

variable {property : String → Prop}

/-- All texts of the pool and of the values have the property. -/
structure TextsHold (property : String → Prop) (pool : TagPool) (values : Dict EntryValue) :
    Prop where
  pool : ∀ text ∈ pool.texts, property text
  names : ∀ field ∈ values.toList, property field.1
  values : ∀ field ∈ values.toList, ∀ text ∈ field.2.texts, property text

theorem TextsHold.keep {pool : TagPool} {values : Dict EntryValue}
    (hold : TextsHold property pool values) {entry : String} (named : property entry)
    {value : EntryValue} (given : ∀ text ∈ value.texts, property text) :
    TextsHold property pool (Record.keep values entry value) := by
  unfold Record.keep
  split
  · exact hold
  · refine ⟨hold.pool, fun field member => ?_, fun field member => ?_⟩
    · rcases Dict.mem_insertField member with rfl | kept
      · exact named
      · exact hold.names field kept
    · rcases Dict.mem_insertField member with rfl | kept
      · exact given
      · exact hold.values field kept

theorem Draft.textsHold_settleEntries {draft : Draft} {entries : List Entry} {pool : TagPool}
    {values : Dict EntryValue} (hold : TextsHold property pool values)
    (named : ∀ entry ∈ entries, property entry.name)
    (drafted : ∀ entry ∈ entries, ∀ value ∈ draft.entries.get? entry.name,
      ∀ text ∈ value.texts, property text) :
    TextsHold property (draft.settleEntries pool values entries).1
      (draft.settleEntries pool values entries).2 := by
  induction entries generalizing pool values with
  | nil => exact hold
  | cons entry rest induction =>
      have ⟨name, names⟩ := List.forall_mem_cons.mp named
      have ⟨here, others⟩ := List.forall_mem_cons.mp drafted
      unfold settleEntries
      split
      · exact induction hold names others
      next value found =>
        have grown : ∀ text ∈ (value.settle entry pool).1.texts, property text := by
          intro text member
          rcases DraftValue.mem_texts_settle member with before | rfl | typed
          · exact hold.pool text before
          · exact name
          · exact here value found text typed
        have settled : TextsHold property (value.settle entry pool).1 values :=
          ⟨grown, hold.names, hold.values⟩
        have given : ∀ stored, (value.settle entry pool).2 = some stored →
            ∀ text ∈ stored.texts, property text := fun stored same text member =>
          here value found text (DraftValue.mem_texts_of_settle same member)
        split
        next extended stored same =>
          rw [same] at settled given
          exact induction (settled.keep name (given stored rfl)) names others
        next extended same =>
          rw [same] at settled
          exact induction settled names others

theorem Entry.Describes.texts_hold {entry : Entry} {document : Json} {value : DraftValue}
    (described : entry.Describes document value)
    (plain : ∀ text ∈ document.texts, property text) : ∀ text ∈ value.texts, property text := by
  cases described with
  | string kind text => exact plain
  | @tags _ texts =>
      intro text member
      rw [DraftValue.texts, Import.filterMap_text?_typed] at member
      exact Json.forall_mem_textsOfItems.mp plain (.string text) (List.mem_map_of_mem member) text
        (List.mem_singleton_self text)
  | @rating _ _ fields _ comment _ _ _ commented =>
      intro text member
      generalize found : Dict.findField "comment" fields = document at commented
      cases commented with
      | absent => cases member
      | null => cases member
      | text comment =>
          have inside := Json.forall_mem_textsOfFields.mp plain _ (Dict.mem_of_findField found)
          rw [DraftValue.texts] at member
          split at member
          · exact inside text member
          · cases member

/-- The texts of what is imported, and of the pool after the import, have a property that the texts
of the pool, the names of the entries and the strings of the document have. -/
theorem textsHold_of_importRecord {configuration : Configuration} {text : String}
    {pool extended : TagPool} {imageSupplied : Bool} {record : Record}
    (imported : importRecord configuration text pool imageSupplied = .ok (record, extended))
    (pooled : ∀ text ∈ pool.texts, property text)
    (named : ∀ entry ∈ configuration.entries, property entry.name)
    (given : ∀ document, Json.parse? text = some document →
      ∀ text ∈ document.texts, property text) :
    TextsHold property extended record.entries := by
  rcases exists_mirrors_of_importRecord imported with ⟨fields, draft, parsed, mirrors, _, finalized⟩
  cases finalized
  refine Draft.textsHold_settleEntries ⟨pooled, List.forall_mem_nil _, List.forall_mem_nil _⟩ named
    fun entry member value drafted => ?_
  have described := mirrors.entries entry member
  rw [Option.mem_def.mp drafted] at described
  generalize found : Dict.findField entry.name fields = document at described
  cases described with
  | some describes =>
      exact describes.texts_hold (Json.forall_mem_textsOfFields.mp (given _ parsed) _
        (Dict.mem_of_findField found))

end Property

theorem image_of_importRecord {configuration : Configuration} {text : String}
    {pool extended : TagPool} {imageSupplied : Bool} {record : Record}
    (imported : importRecord configuration text pool imageSupplied = .ok (record, extended)) :
    record.image = none := by
  rcases exists_mirrors_of_importRecord imported with ⟨_, draft, _, mirrors, _, finalized⟩
  cases finalized
  exact mirrors.image

end SealedCatalog
