import SealedCatalog.Proofs.Codec.Configuration
import SealedCatalog.Proofs.Configuration.Form
import SealedCatalog.Proofs.Traversal

/-! Sanitized documents. A document of the form of a schema is read as that schema once its numbers
are sanitized; and sanitizing changes nothing where all of them are integers of 32 bits. -/

namespace SealedCatalog

open Json (IsCanonical OrNull)

theorem Json.orElse?_orNull?_of_form {form : α → Json → Prop} {read : Json → Option α}
    (absent : read .null = none) {value : Option α} {part : Option Json}
    (formed : OrNull form value part)
    (reads : ∀ value document, part = some document → form value document →
      read document = some value) :
    orElse? none (orNull? read) part = some value := by
  cases formed with
  | absent => rfl
  | null => rfl
  | value formed => exact (orNull?_eq_some_iff absent).mpr (reads _ _ rfl formed)

/-! Readers that look fields up -/

section Readers

variable {fields : List (String × Json)}
  (ascending : fields.Pairwise (fun left right => left.1 < right.1))

include ascending

theorem EntryKind.ofFields?_eq_some_iff {kind : EntryKind} : ofFields? fields = some kind ↔
    ((Json.object fields).get? "type").bind EntryType.ofJson? = some kind.entryType ∧
      match kind with
      | string unique => ((Json.object fields).get? "unique").bind Json.bool? = some unique
      | tag exclusive => ((Json.object fields).get? "exclusive").bind Json.bool? = some exclusive
      | rating maximumScore hints =>
          ((Json.object fields).get? "maximum_score").bind Json.uint32? = some maximumScore ∧
            Json.orElse? none hints? ((Json.object fields).get? "hints") = some hints := by
  simp only [ofFields?, Json.field?_eq_get? ascending, Option.bind_eq_bind, Option.bind_some]
  cases typed : ((Json.object fields).get? "type").bind EntryType.ofJson? with
  | none => simp
  | some entryType =>
      cases entryType <;> cases kind <;> simp [entryType, Option.bind_eq_some_iff, -Bool.exists_bool]

theorem Entry.ofJson?_eq_some_iff {entry : Entry} : ofJson? (.object fields) = some entry ↔
    ((Json.object fields).get? "name").bind Json.string? = some entry.name ∧
      ((Json.object fields).get? "sorting_method").bind SortingMethod.ofJson? =
        some entry.sortingMethod ∧
      ((Json.object fields).get? "optional").bind Json.bool? = some entry.optional ∧
      EntryKind.ofFields? fields = some entry.kind := by
  rcases entry with ⟨name, sortingMethod, optional, kind⟩
  simp only [ofJson?, Json.field?_eq_get? ascending, Option.bind_eq_bind, Option.bind_some]
  simp [Option.bind_eq_some_iff, -Bool.exists_bool]

theorem ImageSize.ofJson?_eq_some_iff {size : ImageSize} : ofJson? (.object fields) = some size ↔
    ((Json.object fields).get? "width").bind Json.uint32? = some size.width ∧
      ((Json.object fields).get? "height").bind Json.uint32? = some size.height := by
  rcases size with ⟨width, height⟩
  simp only [ofJson?, Json.fields?, List.mapM_cons, List.mapM_nil, Json.field?_eq_get? ascending,
    Option.bind_eq_bind, Option.bind_some, Option.pure_def]
  simp [Option.bind_eq_some_iff]

theorem Configuration.ofJson?_eq_some_iff {configuration : Configuration} :
    ofJson? (.object fields) = some configuration ↔
      Json.orElse? none (Json.orNull? ImageSize.ofJson?) ((Json.object fields).get? "image_size") =
        some configuration.imageSize ∧
      ((Json.object fields).get? "entries").bind (Json.listOf? Entry.ofJson?) =
        some configuration.entries := by
  rcases configuration with ⟨imageSize, entries⟩
  simp only [ofJson?, Json.fields?, List.mapM_cons, List.mapM_nil, Json.field?_eq_get? ascending,
    Option.bind_eq_bind, Option.bind_some, Option.pure_def]
  simp [Option.bind_eq_some_iff]

end Readers

/-! Documents whose numbers are integers of 32 bits -/

/-- The number is an integer of 32 bits, written without a point or an exponent. -/
def Json.IsWord (number : Json) : Prop :=
  ∃ value : UInt32, number = .ofUInt32 value

theorem Json.isWord_of_uint32? {number : Json} {value : UInt32}
    (read : number.uint32? = some value) : number.IsWord :=
  ⟨value, uint32?_eq_some_iff.mp read⟩

/-- The maximum score of a rating is an integer of 32 bits. -/
def Entry.WritesWord (document : Json) : Prop :=
  document.get? "type" = some (.string EntryType.rating.name) →
    ∀ score, document.get? "maximum_score" = some score → score.IsWord

structure ImageSize.WritesWords (document : Json) : Prop where
  width : ∀ number, document.get? "width" = some number → number.IsWord
  height : ∀ number, document.get? "height" = some number → number.IsWord

/-- All numbers that a schema asks for, the maximum scores and the size of the images, are integers
of 32 bits. -/
structure Configuration.WritesWords (document : Json) : Prop where
  entries : ∀ items, document.get? "entries" = some (.array items) →
    ∀ item ∈ items, Entry.WritesWord item
  imageSize : ∀ size, document.get? "image_size" = some size → ImageSize.WritesWords size

open SealedCatalog.Configuration (scoreOf clampDimension wholeNumber?)

theorem Configuration.wholeNumber?_ofUInt32 (value : UInt32) :
    wholeNumber? (.ofUInt32 value) = some value := by
  have small := value.toNat_lt
  rw [Json.ofUInt32, wholeNumber?, if_pos (by simp; omega), Int.toNat_natCast, UInt32.ofNat_toNat]

theorem Configuration.scoreOf_ofUInt32 (value : UInt32) : scoreOf (.ofUInt32 value) = value := by
  rw [scoreOf, wholeNumber?_ofUInt32, Option.getD_some]

theorem Configuration.clampDimension_ofUInt32 (value : UInt32) :
    clampDimension (.ofUInt32 value) = value := by
  have small : value.toNat < Nat.pow 2 32 := value.toNat_lt
  rw [Json.ofUInt32, clampDimension, ceiling, Int.toNat_natCast,
    Nat.min_eq_left (Nat.le_sub_one_of_lt small), UInt32.ofNat_toNat]

theorem Json.listOf?_of_listsTexts {texts : List String} {document : Json}
    (listed : ListsTexts texts document) : document.listOf? string? = some texts := by
  rw [listed]
  exact mapM_map_eq_some_iff.mpr fun _ _ => rfl

theorem Entry.HasForm.ofJson?_eq {entry : Entry} {document : Json} (form : entry.HasForm document)
    (isCanonical : document.IsCanonical) (written : WritesWord document) :
    ofJson? document = some entry := by
  rcases Json.exists_eq_object_of_get? form.name with ⟨fields, rfl⟩
  have ascending := isCanonical.ascending
  rw [ofJson?_eq_some_iff ascending, EntryKind.ofFields?_eq_some_iff ascending, form.name,
    form.sortingMethod, form.optional, form.entryType]
  refine ⟨rfl, SortingMethod.ofJson?_name _, rfl, EntryType.ofJson?_name _, ?_⟩
  have typed := form.entryType
  have kindForm := form.kind
  rcases entry with ⟨name, method, optional, kind⟩
  cases kindForm with
  | string found =>
      show Option.bind _ _ = _
      rw [found, Option.bind_some, Json.bool?_bool]
  | tag found =>
      show Option.bind _ _ = _
      rw [found, Option.bind_some, Json.bool?_bool]
  | rating found number hinted =>
      rcases written typed _ found with ⟨maximumScore, rfl⟩
      refine ⟨?_, Json.orElse?_orNull?_of_form rfl hinted fun _ _ _ =>
        Json.listOf?_of_listsTexts⟩
      rw [found, Configuration.scoreOf_ofUInt32]
      exact Json.uint32?_eq_some_iff.mpr rfl

/-- An entry of sound form that is read has an integer of 32 bits for its maximum score. -/
theorem Entry.writesWord_of_ofJson? {entry : Entry} {document : Json}
    (isCanonical : document.IsCanonical) (read : ofJson? document = some entry) :
    WritesWord document := by
  intro typed score found
  rcases Json.exists_eq_object_of_get? typed with ⟨fields, rfl⟩
  have ascending := isCanonical.ascending
  have ofKind := ((ofJson?_eq_some_iff ascending).mp read).2.2.2
  have ⟨typeRead, rest⟩ := (EntryKind.ofFields?_eq_some_iff ascending).mp ofKind
  rw [typed, Option.bind_some, EntryType.ofJson?_name, Option.some.injEq] at typeRead
  cases kind : entry.kind with
  | rating maximumScore hints =>
      rw [kind] at rest
      have scoreRead := rest.1
      rw [found, Option.bind_some] at scoreRead
      exact Json.isWord_of_uint32? scoreRead
  | _ =>
      rw [kind] at typeRead
      cases typeRead

theorem ImageSize.HasForm.ofJson?_eq {size : ImageSize} {document : Json}
    (form : size.HasForm document) (isCanonical : document.IsCanonical)
    (written : WritesWords document) : ofJson? document = some size := by
  rcases form.width with ⟨width, wide, _, widthSame⟩
  rcases form.height with ⟨height, high, _, heightSame⟩
  rcases Json.exists_eq_object_of_get? wide with ⟨fields, rfl⟩
  rcases written.width _ wide with ⟨widthWord, rfl⟩
  rcases written.height _ high with ⟨heightWord, rfl⟩
  rw [Configuration.clampDimension_ofUInt32] at widthSame heightSame
  rw [ofJson?_eq_some_iff isCanonical.ascending, wide, high, ← widthSame, ← heightSame]
  exact ⟨Json.uint32?_eq_some_iff.mpr rfl, Json.uint32?_eq_some_iff.mpr rfl⟩

theorem ImageSize.writesWords_of_ofJson? {size : ImageSize} {fields : List (String × Json)}
    (ascending : fields.Pairwise (fun left right => left.1 < right.1))
    (read : ofJson? (.object fields) = some size) : WritesWords (.object fields) := by
  have ⟨widthRead, heightRead⟩ := (ofJson?_eq_some_iff ascending).mp read
  constructor
  · intro number found
    rw [found] at widthRead
    exact Json.isWord_of_uint32? widthRead
  · intro number found
    rw [found] at heightRead
    exact Json.isWord_of_uint32? heightRead

theorem Configuration.HasForm.ofJson?_eq {configuration : Configuration} {document : Json}
    (form : configuration.HasForm document) (isCanonical : document.IsCanonical)
    (written : WritesWords document) : ofJson? document = some configuration := by
  rcases form.entries with ⟨items, listed, forms⟩
  rcases Json.exists_eq_object_of_get? listed with ⟨fields, rfl⟩
  have each : ∀ item ∈ items, item.IsCanonical ∧ Entry.WritesWord item := fun item member =>
    ⟨(isCanonical.of_get? listed).of_mem member, written.entries items listed item member⟩
  rw [ofJson?_eq_some_iff isCanonical.ascending, listed]
  constructor
  · apply Json.orElse?_orNull?_of_form rfl form.imageSize
    intro size document found sizeForm
    exact sizeForm.ofJson?_eq (isCanonical.of_get? found) (written.imageSize document found)
  · have reversed : List.Forall₂ (fun item entry => Entry.HasForm entry item) items
        configuration.entries := forms.flip
    have paired := (List.forall₂_and_left items _).mpr ⟨each, reversed⟩
    exact mapM_eq_some_iff.mpr (paired.imp fun item entry ⟨both, entryForm⟩ =>
      entryForm.ofJson?_eq both.1 both.2)

theorem Configuration.writesWords_of_ofJson? {configuration : Configuration} {document : Json}
    (isCanonical : document.IsCanonical) (form : HasForm other document)
    (read : ofJson? document = some configuration) : WritesWords document := by
  rcases form.entries with ⟨items, listed, _⟩
  rcases Json.exists_eq_object_of_get? listed with ⟨fields, rfl⟩
  have ⟨sizeRead, entriesRead⟩ := (ofJson?_eq_some_iff isCanonical.ascending).mp read
  constructor
  · intro items found item member
    rw [found, Option.bind_some] at entriesRead
    rcases exists_of_mapM_of_mem entriesRead member with ⟨entry, _, entryRead⟩
    exact Entry.writesWord_of_ofJson? ((isCanonical.of_get? found).of_mem member) entryRead
  · intro size found
    have sizeCanonical := isCanonical.of_get? found
    rw [found] at sizeRead
    cases size with
    | object sizeFields =>
        rcases Option.map_eq_some_iff.mp sizeRead with ⟨imageSize, imageRead, _⟩
        exact ImageSize.writesWords_of_ofJson? sizeCanonical.ascending imageRead
    | _ =>
        constructor
        all_goals
          intro number absent
          cases absent

/-! What sanitizing makes of a document of sound form -/

namespace Configuration

variable {fields : Fields}

theorem sanitizeEntry_of_rating
    (typed : (Json.object fields).get? "type" = some (.string EntryType.rating.name)) {score : Json}
    (found : (Json.object fields).get? "maximum_score" = some score)
    (number : score.isNumber = true) : sanitizeEntry (.object fields) =
      .object (Dict.insertField "maximum_score" (.ofUInt32 (scoreOf score)) fields) := by
  rw [Json.get?] at typed found
  simp only [sanitizeEntry, typed, found, number, decide_true, Bool.and_self, if_true]
  rfl

theorem sanitizeEntry_of_ne {entryType : EntryType}
    (typed : (Json.object fields).get? "type" = some (.string entryType.name))
    (other : entryType ≠ .rating) : sanitizeEntry (.object fields) = .object fields := by
  rw [Json.get?] at typed
  simp only [sanitizeEntry, typed]
  split
  next same _ =>
    have differs : entryType.name ≠ EntryType.rating.name := fun equal =>
      other (EntryType.name_inj.mp equal)
    cases same
    simp [differs]
  · rfl

end Configuration

/-- A sanitized entry has the same form, with an integer of 32 bits for its maximum score. -/
theorem Entry.HasForm.sanitized {entry : Entry} {document : Json}
    (form : entry.HasForm document) :
    entry.HasForm (Configuration.sanitizeEntry document) ∧
      WritesWord (Configuration.sanitizeEntry document) := by
  rcases Json.exists_eq_object_of_get? form.name with ⟨fields, rfl⟩
  have typed := form.entryType
  have kindForm := form.kind
  have unchanged (other : entry.entryType ≠ .rating) :
      entry.HasForm (Configuration.sanitizeEntry (.object fields)) ∧
        WritesWord (Configuration.sanitizeEntry (.object fields)) := by
    rw [Configuration.sanitizeEntry_of_ne typed other]
    refine ⟨form, fun rating => ?_⟩
    have same := Json.string.inj (Option.some.inj (typed.symm.trans rating))
    exact absurd (EntryType.name_inj.mp same) other
  rcases entry with ⟨name, method, optional, kind⟩
  cases kindForm with
  | @rating score hints found number hinted =>
      rw [Configuration.sanitizeEntry_of_rating typed found number]
      have scored := Json.get?_insertField_self "maximum_score" (.ofUInt32 (scoreOf score)) fields
      have kept := fun other (different : "maximum_score" ≠ other) =>
        Json.get?_insertField_of_ne different (.ofUInt32 (scoreOf score)) fields
      constructor
      · refine ⟨(kept "name" (by decide)).trans form.name,
          (kept "sorting_method" (by decide)).trans form.sortingMethod,
          (kept "optional" (by decide)).trans form.optional,
          (kept "type" (by decide)).trans typed, ?_⟩
        have rated := EntryKind.HasForm.rating scored rfl ((kept "hints" (by decide)).symm ▸ hinted)
        rwa [Configuration.scoreOf_ofUInt32] at rated
      · intro _ number written
        exact ⟨_, Option.some.inj (written.symm.trans scored)⟩
  | string => exact unchanged EntryType.noConfusion
  | tag => exact unchanged EntryType.noConfusion

theorem ImageSize.hasForm_of_words {size : ImageSize} {document : Json}
    (width : document.get? "width" = some (.ofUInt32 size.width))
    (height : document.get? "height" = some (.ofUInt32 size.height)) :
    size.HasForm document ∧ WritesWords document := by
  refine ⟨⟨⟨_, width, rfl, Configuration.clampDimension_ofUInt32 _⟩,
    ⟨_, height, rfl, Configuration.clampDimension_ofUInt32 _⟩⟩, ⟨?_, ?_⟩⟩
  · intro number found
    exact ⟨_, Option.some.inj (found.symm.trans width)⟩
  · intro number found
    exact ⟨_, Option.some.inj (found.symm.trans height)⟩

namespace Configuration

variable {fields : Fields}

theorem sanitizeDimension_of_get? {name : String} {number : Json}
    (found : (Json.object fields).get? name = some number) : sanitizeDimension name fields =
      Dict.insertField name (.ofUInt32 (clampDimension number)) fields := by
  rw [Json.get?] at found
  simp only [sanitizeDimension, found]

theorem sanitizeEntries_of_get? {items : List Json}
    (listed : (Json.object fields).get? "entries" = some (.array items)) : sanitizeEntries fields =
      Dict.insertField "entries" (.array (items.map sanitizeEntry)) fields := by
  rw [Json.get?] at listed
  simp only [sanitizeEntries, listed]

theorem sanitizeSize_of_get? {size : Fields}
    (found : (Json.object fields).get? "image_size" = some (.object size)) : sanitizeSize fields =
      Dict.insertField "image_size"
        (.object (sanitizeDimension "height" (sanitizeDimension "width" size))) fields := by
  rw [Json.get?] at found
  simp only [sanitizeSize, found]

theorem sanitizeSize_of_ne
    (other : ∀ size, (Json.object fields).get? "image_size" ≠ some (.object size)) :
    sanitizeSize fields = fields := by
  rw [sanitizeSize]
  split
  next size found => exact absurd found (other size)
  · rfl

theorem hasForm_sanitizedSize {size : ImageSize} (form : size.HasForm (.object fields)) :
    size.HasForm (.object (sanitizeDimension "height" (sanitizeDimension "width" fields))) ∧
      ImageSize.WritesWords
        (.object (sanitizeDimension "height" (sanitizeDimension "width" fields))) := by
  rcases form.width with ⟨width, wide, _, widthSame⟩
  rcases form.height with ⟨height, high, _, heightSame⟩
  have different : "width" ≠ "height" := by decide
  have still :=
    (Json.get?_insertField_of_ne different (.ofUInt32 size.width) fields).trans high
  rw [sanitizeDimension_of_get? wide, widthSame, sanitizeDimension_of_get? still, heightSame]
  apply ImageSize.hasForm_of_words
  · rw [Json.get?_insertField_of_ne (by decide), Json.get?_insertField_self]
  · rw [Json.get?_insertField_self]

theorem orNull_sanitizeSize {size : Option ImageSize}
    (formed : OrNull ImageSize.HasForm size ((Json.object fields).get? "image_size")) :
    OrNull ImageSize.HasForm size ((Json.object (sanitizeSize fields)).get? "image_size") ∧
      (∀ written, (Json.object (sanitizeSize fields)).get? "image_size" = some written →
        ImageSize.WritesWords written) ∧
      (Json.object (sanitizeSize fields)).get? "entries" = (Json.object fields).get? "entries" := by
  generalize part : (Json.object fields).get? "image_size" = document at formed
  cases formed with
  | absent =>
      rw [sanitizeSize_of_ne (by simp [part]), part]
      exact ⟨.absent, nofun, rfl⟩
  | null =>
      rw [sanitizeSize_of_ne (by simp [part]), part]
      refine ⟨.null, fun _ found => ?_, rfl⟩
      cases found
      exact ⟨nofun, nofun⟩
  | value form =>
      rcases form.width with ⟨width, wide, _⟩
      rcases Json.exists_eq_object_of_get? wide with ⟨written, rfl⟩
      have ⟨sanitized, words⟩ := hasForm_sanitizedSize form
      rw [sanitizeSize_of_get? part, Json.get?_insertField_self,
        Json.get?_insertField_of_ne (by decide)]
      refine ⟨.value sanitized, fun _ found => ?_, rfl⟩
      cases found
      exact words

/-- A sanitized document has the same form, with integers of 32 bits. -/
theorem HasForm.sanitized {configuration : Configuration}
    (form : configuration.HasForm (.object fields)) :
    configuration.HasForm (sanitize fields) ∧ WritesWords (sanitize fields) := by
  rcases form.entries with ⟨items, listed, forms⟩
  -- Entries are sanitized first, which leaves the size; and the size next, which leaves them.
  have cleaned := Json.get?_insertField_self "entries" (.array (items.map sanitizeEntry)) fields
  have different : "entries" ≠ "image_size" := by decide
  have kept :=
    Json.get?_insertField_of_ne different (.array (items.map sanitizeEntry)) fields
  rw [← sanitizeEntries_of_get? listed] at cleaned kept
  have ⟨sized, sizeWords, entriesSame⟩ := orNull_sanitizeSize (kept.symm ▸ form.imageSize)
  have listedStill := entriesSame.trans cleaned
  have paired : List.Forall₂ (fun item entry => Entry.WritesWord (sanitizeEntry item) ∧
      Entry.HasForm entry (sanitizeEntry item)) items configuration.entries :=
    (forms.imp fun _ _ entryForm => entryForm.sanitized.symm).flip
  have ⟨words, formsStill⟩ := (List.forall₂_and_left items _).mp paired
  constructor
  · exact ⟨sized, _, listedStill, List.forall₂_map_right_iff.mpr formsStill.flip⟩
  · refine ⟨fun others found item member => ?_, sizeWords⟩
    cases Json.array.inj (Option.some.inj (listedStill.symm.trans found))
    rcases List.mem_map.mp member with ⟨original, originalMember, rfl⟩
    exact words original originalMember

/-! The sanitized document is read -/

theorem isCanonical_sanitizeEntry {document : Json} (isCanonical : document.IsCanonical) :
    (sanitizeEntry document).IsCanonical := by
  unfold sanitizeEntry
  split
  · split
    · split
      · exact isCanonical.insertField _ (.int _)
      · exact isCanonical
    · exact isCanonical
  · exact isCanonical

theorem isCanonical_sanitizeDimension (isCanonical : (Json.object fields).IsCanonical)
    (name : String) : (Json.object (sanitizeDimension name fields)).IsCanonical := by
  unfold sanitizeDimension
  split
  · exact isCanonical.insertField _ (.int _)
  · exact isCanonical

theorem isCanonical_sanitize (isCanonical : (Json.object fields).IsCanonical) :
    (sanitize fields).IsCanonical := by
  have cleaned : (Json.object (sanitizeEntries fields)).IsCanonical := by
    unfold sanitizeEntries
    split
    next items listed =>
      refine isCanonical.insertField _ (.array fun item member => ?_)
      rcases List.mem_map.mp member with ⟨original, originalMember, rfl⟩
      have found : (Json.object fields).get? "entries" = some (.array items) := listed
      exact isCanonical_sanitizeEntry ((isCanonical.of_get? found).of_mem originalMember)
    · exact isCanonical
  unfold sanitize sanitizeSize
  split
  next size sized =>
    have found : (Json.object (sanitizeEntries fields)).get? "image_size" =
        some (.object size) := sized
    exact cleaned.insertField _
      (isCanonical_sanitizeDimension (isCanonical_sanitizeDimension (cleaned.of_get? found) _) _)
  · exact cleaned

/-- A document of the form of a schema is read as the schema once it is sanitized. -/
theorem HasForm.ofJson?_sanitize {configuration : Configuration}
    (form : configuration.HasForm (.object fields))
    (isCanonical : (Json.object fields).IsCanonical) :
    ofJson? (sanitize fields) = some configuration :=
  form.sanitized.1.ofJson?_eq (isCanonical_sanitize isCanonical) form.sanitized.2

end Configuration

end SealedCatalog
