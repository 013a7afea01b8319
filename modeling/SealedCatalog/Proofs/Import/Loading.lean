import SealedCatalog.Draft.Check
import SealedCatalog.Import
import SealedCatalog.Proofs.Marker.Yielding
import SealedCatalog.Proofs.Outcome
import SealedCatalog.Proofs.Traversal

/-! Values of drafts that documents describe. A document of the shape that its entry asks for
describes a value that types all its tags, and it is loaded exactly when the check finds no problem
with that value. -/

namespace SealedCatalog

/-- The comment of a draft for the comment among the fields of a rating. -/
inductive Import.IsComment : Option Json → String → Prop where
  | absent : IsComment none ""
  | null : IsComment (some .null) ""
  | text (text : String) : IsComment (some (.string text)) text

/-- The document has the shape of the entry, and describes the value of a draft. A comment is used
if there is anything in it. -/
inductive Entry.Describes (entry : Entry) : Json → DraftValue → Prop where
  | string {unique : Bool} (kind : entry.kind = .string unique) (text : String) :
      Describes entry (.string text) (.string text)
  | tags {exclusive : Bool} {texts : List String} (kind : entry.kind = .tag exclusive)
      (named : ∀ text ∈ texts, text ≠ "") :
      Describes entry (.array (texts.map .string)) (.tags (texts.map .typed))
  | rating {maximum : UInt32} {hints : Option (List String)} {fields : List (String × Json)}
      {score : UInt32} {comment : String} (kind : entry.kind = .rating maximum hints)
      (scored : Dict.findField "score" fields = some (.ofUInt32 score)) (bounded : score ≤ maximum)
      (commented : Import.IsComment (Dict.findField "comment" fields) comment) :
      Describes entry (.object fields) (.rating score comment (decide (comment ≠ "")))

namespace Import

theorem requirePresent_eq_ok_iff {entry : Entry} {absent : Bool} {done : Unit} :
    requirePresent entry absent = .ok done ↔ (absent = true → entry.optional = true) := by
  unfold requirePresent
  cases absent <;> cases entry.optional <;> simp

theorem requirePresent_bind_eq_ok_iff {entry : Entry} {absent : Bool} {α : Type}
    {next : Unit → Except ImportError α} {result : α} :
    (requirePresent entry absent >>= next) = .ok result ↔
      (absent = true → entry.optional = true) ∧ next () = .ok result := by
  rw [Outcome.bind_eq_ok_iff]
  simp only [requirePresent_eq_ok_iff]
  exact ⟨fun ⟨_, present, rest⟩ => ⟨present, rest⟩, fun ⟨present, rest⟩ => ⟨(), present, rest⟩⟩

theorem requireSortable_eq_ok_iff {entry : Entry} {pool : TagPool} {value : EntryValue}
    {loaded : Loaded} : requireSortable entry pool value = .ok loaded ↔
      (value.isEmpty = false → entry.sortingMethod.isActive = true →
        (SortKey.ofValue entry value pool).isSome = true) ∧ loaded = .value value := by
  unfold requireSortable
  cases entry.sortingMethod.isActive <;> cases value.isEmpty <;>
    cases SortKey.ofValue entry value pool <;> simp [eq_comm]

theorem tagText?_eq_some_iff {item : Json} {text : String} :
    tagText? item = some text ↔ item = .string text ∧ text ≠ "" := by
  cases item with
  | string found => by_cases empty : found = "" <;> grind [tagText?, String.isEmpty_iff]
  | _ => simp [tagText?]

theorem mapM_tagText?_eq_some_iff {items : List Json} {texts : List String} :
    items.mapM tagText? = some texts ↔
      items = texts.map .string ∧ ∀ text ∈ texts, text ≠ "" := by
  simp only [mapM_eq_some_iff, tagText?_eq_some_iff]
  constructor
  · intro each
    induction each with
    | nil => simp
    | cons here _ induction =>
        rw [here.1, induction.1]
        exact ⟨rfl, List.forall_mem_cons.mpr ⟨here.2, induction.2⟩⟩
  · rintro ⟨rfl, named⟩
    rw [List.forall₂_map_left_iff, List.forall₂_same]
    exact fun text member => ⟨rfl, named text member⟩

theorem comment?_eq_some_iff {fields : List (String × Json)} {comment : Option String} :
    comment? fields = some comment ↔
      ∃ text, IsComment (Dict.findField "comment" fields) text ∧
        comment = if text ≠ "" then some text else none := by
  unfold comment?
  split
  next absent =>
    rw [absent]
    constructor
    · rintro ⟨⟩
      exact ⟨"", .absent, by simp⟩
    · rintro ⟨text, ⟨⟩, rfl⟩
      simp
  next null =>
    rw [null]
    constructor
    · rintro ⟨⟩
      exact ⟨"", .null, by simp⟩
    · rintro ⟨text, ⟨⟩, rfl⟩
      simp
  next text found =>
    rw [found]
    constructor
    · rintro ⟨⟩
      exact ⟨text, .text text, by simp [String.isEmpty_iff]⟩
    · rintro ⟨_, ⟨⟩, rfl⟩
      simp [String.isEmpty_iff]
  next other notNull notText found =>
    rw [found]
    constructor
    · rintro ⟨⟩
    · rintro ⟨text, is, _⟩
      cases is with
      | null => exact absurd rfl notNull
      | text => exact absurd rfl (notText text)

end Import

theorem DraftValue.problem?_eq_none_iff {entry : Entry} {value : DraftValue} :
    value.problem? entry = none ↔ value.overfills entry = false ∧
      (entry.sortingMethod.isActive = true → value.sorts entry.sortingMethod = true) := by
  unfold problem?
  cases value.overfills entry <;> cases entry.sortingMethod.isActive <;>
    cases value.sorts entry.sortingMethod <;> simp

/-- A value of the entry's type has no problem if it counts as none and may be missing, or if it
does not and has none itself. -/
theorem Entry.draftProblem?_some_eq_none_iff {entry : Entry} {value : DraftValue}
    (fits : value.fits entry.kind = true) : entry.draftProblem? (some value) = none ↔
      (value.isEmpty = true → entry.optional = true) ∧
        (value.isEmpty = false → value.problem? entry = none) := by
  unfold draftProblem?
  cases empty : value.isEmpty <;> cases entry.optional <;> simp [Option.filter, fits, empty]

theorem Entry.draftProblem?_none_eq_none_iff {entry : Entry} :
    entry.draftProblem? none = none ↔ entry.optional = true := by
  unfold draftProblem?
  cases entry.optional <;> simp

namespace Import

/-- What is loaded where a draft holds the value. -/
def Loaded.ofDraft : DraftValue → Loaded
  | .string text => .value (.string text)
  | .tags chosen => .tags (chosen.filterMap DraftTag.text?)
  | .rating score comment useComment =>
      .value (.rating score (if useComment then some comment else none))

theorem loadString_eq_ok_iff {entry : Entry} {text : String} {value : EntryValue} :
    loadString entry (.string text) = .ok value ↔
      (text.isEmpty = true → entry.optional = true) ∧ .string text = value := by
  rw [loadString, requirePresent_bind_eq_ok_iff, Outcome.pure_eq_ok_iff]

theorem loadTags_eq_ok_iff {entry : Entry} {exclusive : Bool} {items : List Json}
    {texts : List String} : loadTags entry exclusive (.array items) = .ok texts ↔
      items.mapM tagText? = some texts ∧ (exclusive && decide (1 < texts.length)) = false ∧
        (texts.isEmpty = true → entry.optional = true) := by
  simp only [loadTags]
  cases read : items.mapM tagText? with
  | none => simp
  | some found =>
      simp only [Outcome.ite_throw_eq_ok_iff, requirePresent_bind_eq_ok_iff,
        Outcome.pure_eq_ok_iff, Option.some.injEq, Bool.not_eq_true]
      constructor
      · rintro ⟨few, present, rfl⟩
        exact ⟨rfl, few, present⟩
      · rintro ⟨rfl, few, present⟩
        exact ⟨few, present, rfl⟩

theorem loadRating_eq_ok_iff {entry : Entry} {maximum : UInt32} {fields : List (String × Json)}
    {value : EntryValue} : loadRating entry maximum (.object fields) = .ok value ↔
      ∃ score comment, Dict.findField "score" fields = some (.ofUInt32 score) ∧ score ≤ maximum ∧
        ((score == 0) = true → entry.optional = true) ∧ comment? fields = some comment ∧
        .rating score comment = value := by
  have read : ∀ score, Dict.findField "score" fields = some (.ofUInt32 score) ↔
      (Dict.findField "score" fields).bind Json.uint32? = some score := fun score => by
    simp [Option.bind_eq_some_iff, Json.uint32?_eq_some_iff]
  simp only [loadRating, read]
  cases (Dict.findField "score" fields).bind Json.uint32? with
  | none => simp
  | some score =>
      simp only [Outcome.ite_throw_eq_ok_iff, requirePresent_bind_eq_ok_iff, UInt32.not_lt,
        Option.some.injEq, exists_and_left, exists_eq_left']
      refine and_congr_right fun _ => and_congr_right fun _ => ?_
      cases comment? fields with
      | none => simp [throw, throwThe, MonadExceptOf.throw]
      | some comment => simp [Outcome.pure_eq_ok_iff]

theorem filterMap_text?_typed (texts : List String) :
    (texts.map DraftTag.typed).filterMap DraftTag.text? = texts := by
  rw [List.filterMap_map]
  exact List.filterMap_some

theorem filterMap_index?_typed (texts : List String) :
    (texts.map DraftTag.typed).filterMap DraftTag.index? = [] := by
  rw [List.filterMap_map]
  exact List.filterMap_eq_nil_iff.mpr fun _ _ => rfl

/-- An entry is loaded from a document of its shape exactly when the check finds no problem with the
value that the document describes. -/
theorem loadEntry_eq_ok_iff {entry : Entry} {pool : TagPool} {document : Json}
    {value : DraftValue} (described : entry.Describes document value) {loaded : Loaded} :
    loadEntry entry pool document = .ok loaded ↔
      entry.draftProblem? (some value) = none ∧ loaded = .ofDraft value := by
  cases described with
  | string kind text =>
      have key : SortKey.ofValue entry (.string text) pool =
          SortKey.encodeText entry.sortingMethod text := by simp only [SortKey.ofValue, kind]
      rw [Entry.draftProblem?_some_eq_none_iff (by rw [kind]; rfl), DraftValue.problem?_eq_none_iff]
      simp only [loadEntry, kind, Outcome.bind_eq_ok_iff, loadString_eq_ok_iff,
        requireSortable_eq_ok_iff]
      constructor
      · rintro ⟨_, ⟨present, rfl⟩, sortable, rfl⟩
        rw [key] at sortable
        exact ⟨⟨present, fun filled => ⟨rfl, sortable filled⟩⟩, rfl⟩
      · rintro ⟨⟨present, sound⟩, rfl⟩
        refine ⟨_, ⟨present, rfl⟩, ?_, rfl⟩
        rw [key]
        exact fun filled => (sound filled).2
  | @tags exclusive texts kind named =>
      have few : DraftValue.overfills entry (.tags (texts.map .typed)) =
          (exclusive && decide (1 < texts.length)) := by
        rw [DraftValue.overfills, Entry.isExclusive, kind, List.length_map]
      have emptiness : DraftValue.isEmpty (.tags (texts.map .typed)) = texts.isEmpty := by
        rw [DraftValue.isEmpty, List.isEmpty_map]
      rw [Entry.draftProblem?_some_eq_none_iff (by rw [kind]; rfl),
        DraftValue.problem?_eq_none_iff, few, emptiness, Loaded.ofDraft, filterMap_text?_typed]
      simp only [loadEntry, kind, Outcome.bind_eq_ok_iff, loadTags_eq_ok_iff,
        mapM_tagText?_eq_some_iff.mpr ⟨rfl, named⟩, Option.some.injEq, Outcome.pure_eq_ok_iff]
      constructor
      · rintro ⟨_, ⟨rfl, single, present⟩, rfl⟩
        exact ⟨⟨present, fun _ => ⟨single, fun _ => rfl⟩⟩, rfl⟩
      · rintro ⟨⟨present, sound⟩, rfl⟩
        refine ⟨texts, ⟨rfl, ?_, present⟩, rfl⟩
        cases texts with
        | nil => simp
        | cons => exact (sound rfl).1
  | @rating maximum hints fields score comment kind scored bounded commented =>
      have key : ∀ comment, SortKey.ofValue entry (.rating score comment) pool =
          SortKey.encodeRating entry.sortingMethod score := fun comment => by
        simp only [SortKey.ofValue, kind]
      have used : comment? fields = some (if comment ≠ "" then some comment else none) :=
        comment?_eq_some_iff.mpr ⟨comment, commented, rfl⟩
      rw [Entry.draftProblem?_some_eq_none_iff (by rw [kind]; rfl), DraftValue.problem?_eq_none_iff]
      simp only [loadEntry, kind, Outcome.bind_eq_ok_iff, loadRating_eq_ok_iff,
        requireSortable_eq_ok_iff, scored, used, Option.some.injEq, Json.ofUInt32_inj, Loaded.ofDraft,
        decide_eq_true_eq]
      constructor
      · rintro ⟨_, ⟨_, _, rfl, _, present, rfl, rfl⟩, sortable, rfl⟩
        rw [key] at sortable
        exact ⟨⟨present, fun filled => ⟨rfl, sortable filled⟩⟩, rfl⟩
      · rintro ⟨⟨present, sound⟩, rfl⟩
        refine ⟨_, ⟨score, _, rfl, bounded, present, rfl, rfl⟩, ?_, rfl⟩
        rw [key]
        exact fun filled => (sound filled).2

end Import

/-! What documents determine -/

theorem Import.IsComment.unique {document : Option Json} {left right : String}
    (first : IsComment document left) (second : IsComment document right) : left = right := by
  cases first <;> cases second <;> rfl

/-- The value depends on the document alone, so that entries of one name agree on it. -/
theorem Entry.Describes.unique {entry other : Entry} {document : Json} {left right : DraftValue}
    (first : entry.Describes document left) (second : other.Describes document right) :
    left = right := by
  cases first with
  | string => cases second; rfl
  | @tags _ texts =>
      generalize same : Json.array (texts.map .string) = document at second
      cases second with
      | string => cases same
      | @tags _ others =>
          have equal : texts = others :=
            List.map_injective_iff.mpr (fun _ _ => Json.string.inj) (Json.array.inj same)
          rw [equal]
      | rating => cases same
  | @rating _ _ fields score comment _ scored _ commented =>
      cases second with
      | @rating _ _ _ score' comment' _ scored' _ commented' =>
          rw [scored, Option.some.injEq, Json.ofUInt32_inj] at scored'
          rw [scored', commented.unique commented']

theorem Import.exists_describes_of_loadEntry {entry : Entry} {pool : TagPool} {document : Json}
    {loaded : Loaded} (succeeded : loadEntry entry pool document = .ok loaded) :
    ∃ value, entry.Describes document value := by
  unfold loadEntry at succeeded
  cases kind : entry.kind with
  | string unique =>
      simp only [kind, Outcome.bind_eq_ok_iff] at succeeded
      rcases succeeded with ⟨_, read, _⟩
      cases document with
      | string text => exact ⟨_, .string kind text⟩
      | _ => cases read
  | tag exclusive =>
      simp only [kind, Outcome.bind_eq_ok_iff] at succeeded
      rcases succeeded with ⟨texts, read, _⟩
      cases document with
      | array items =>
          rcases mapM_tagText?_eq_some_iff.mp (loadTags_eq_ok_iff.mp read).1 with ⟨rfl, named⟩
          exact ⟨_, .tags kind named⟩
      | _ => cases read
  | rating maximum hints =>
      simp only [kind, Outcome.bind_eq_ok_iff] at succeeded
      rcases succeeded with ⟨_, read, _⟩
      cases document with
      | object fields =>
          rcases loadRating_eq_ok_iff.mp read with ⟨score, _, scored, bounded, _, used, _⟩
          rcases comment?_eq_some_iff.mp used with ⟨comment, commented, _⟩
          exact ⟨_, .rating kind scored bounded commented⟩
      | _ => cases read

end SealedCatalog
