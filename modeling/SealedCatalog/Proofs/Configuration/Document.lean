import SealedCatalog.Json.Reader
import SealedCatalog.Proofs.Configuration.Sanitizing
import SealedCatalog.Text.Occurrence

/-! What is found wrong with an untrusted document. Once its form is sound the document is read, so
that its problems are those of a schema; of the JSON of a schema they are that schema's own. A
document without problems is itself read exactly when its numbers are written as the integers that
a schema holds. -/

namespace SealedCatalog

/-! The JSON of a schema has the form of the schema -/

theorem Entry.hasForm_toJson (entry : Entry) :
    entry.HasForm entry.toJson.canonical ∧ WritesWord entry.toJson.canonical := by
  rcases entry with ⟨name, method, optional, kind⟩
  -- A field is found in the canonical form as it is written, the kind still open.
  have found : ∀ field, (toJson ⟨name, method, optional, kind⟩).canonical.get? field =
      (Dict.findField field (("name", Json.string name) ::
        ("sorting_method", .string method.name) :: ("optional", .bool optional) ::
        ("type", .string kind.entryType.name) :: kind.fields).reverse).map Json.canonical :=
    fun field => Json.get?_canonical_object field _
  generalize (toJson ⟨name, method, optional, kind⟩).canonical = document at found ⊢
  cases kind with
  | string unique =>
      refine ⟨⟨found _, found _, found _, found _, .string (found _)⟩, fun _ score scored => ?_⟩
      exact nomatch (found _).symm.trans scored
  | tag exclusive =>
      refine ⟨⟨found _, found _, found _, found _, .tag (found _)⟩, fun _ score scored => ?_⟩
      exact nomatch (found _).symm.trans scored
  | rating maximumScore hints =>
      have scored : document.get? "maximum_score" = some (.ofUInt32 maximumScore) := found _
      have hinted : Json.OrNull Json.ListsTexts hints (document.get? "hints") := by
        rw [found "hints"]
        cases hints with
        | none => exact .null
        | some labels => exact .value (Json.canonical_texts labels)
      have rated := EntryKind.HasForm.rating scored rfl hinted
      rw [Configuration.scoreOf_ofUInt32] at rated
      refine ⟨⟨found _, found _, found _, found _, rated⟩, fun _ number written => ?_⟩
      exact ⟨_, Option.some.inj (written.symm.trans scored)⟩

theorem ImageSize.hasForm_toJson (size : ImageSize) :
    size.HasForm size.toJson.canonical ∧ WritesWords size.toJson.canonical := by
  have found := fun field => Json.get?_canonical_object field
    [("width", Json.ofUInt32 size.width), ("height", Json.ofUInt32 size.height)]
  exact hasForm_of_words (found _) (found _)

namespace Configuration

open ConfigurationProblem (shape)

theorem hasForm_toJson (configuration : Configuration) :
    configuration.HasForm configuration.toJson.canonical ∧
      WritesWords configuration.toJson.canonical := by
  rcases configuration with ⟨imageSize, entries⟩
  have listed : Json.get? "entries" (toJson ⟨imageSize, entries⟩).canonical =
      some (.array (entries.map fun entry => entry.toJson.canonical)) := by
    have items : (Json.array (entries.map Entry.toJson)).canonical =
        .array (entries.map fun entry => entry.toJson.canonical) := by
      rw [Json.canonical_array, List.map_map]
      rfl
    rw [← items]
    cases imageSize <;> exact Json.get?_canonical_object _ _
  have forms : List.Forall₂ Entry.HasForm entries
      (entries.map fun entry => entry.toJson.canonical) := by
    rw [List.forall₂_map_right_iff, List.forall₂_same]
    exact fun entry _ => entry.hasForm_toJson.1
  have words : ∀ items, Json.get? "entries" (toJson ⟨imageSize, entries⟩).canonical =
      some (.array items) → ∀ item ∈ items, Entry.WritesWord item := by
    intro items found item member
    cases Json.array.inj (Option.some.inj (listed.symm.trans found))
    rcases List.mem_map.mp member with ⟨entry, _, rfl⟩
    exact entry.hasForm_toJson.2
  cases imageSize with
  | none =>
      have unsized : Json.get? "image_size" (toJson ⟨none, entries⟩).canonical = none :=
        Json.get?_canonical_object _ _
      refine ⟨⟨unsized ▸ .absent, _, listed, forms⟩, words, fun size found => ?_⟩
      exact nomatch unsized.symm.trans found
  | some size =>
      have sized : Json.get? "image_size" (toJson ⟨some size, entries⟩).canonical =
          some size.toJson.canonical := Json.get?_canonical_object _ _
      refine ⟨⟨sized ▸ .value size.hasForm_toJson.1, _, listed, forms⟩, words,
        fun written found => ?_⟩
      rw [← Option.some.inj (sized.symm.trans found)]
      exact size.hasForm_toJson.2

variable {fields : Fields} {configuration : Configuration}

theorem hasIntegerSize_of_writesWords (written : WritesWords (.object fields)) :
    hasIntegerSize fields = true := by
  have whole : ∀ number : Json, number.IsWord → isInteger number = true := by
    intro number word
    rcases word with ⟨value, rfl⟩
    rfl
  rw [hasIntegerSize]
  split
  next size found =>
    have words := written.imageSize _ found
    rw [Bool.and_eq_true, Option.all_eq_true, Option.all_eq_true]
    exact ⟨fun number wide => whole number (words.width number wide),
      fun number high => whole number (words.height number high)⟩
  · rfl

theorem documentProblems_of_hasForm (isCanonical : (Json.object fields).IsCanonical)
    (form : configuration.HasForm (.object fields)) : documentProblems (.object fields) =
      configuration.contentProblems (hasIntegerSize fields) := by
  have sound := shapeProblems_eq_nil_iff.mpr ⟨configuration, form⟩
  rw [documentProblems, sound]
  simp only [form.ofJson?_sanitize isCanonical]

/-! No document is refused by the reader alone -/

theorem shape_not_mem_nameProblems (message name : String) (names : NamesMet)
    (position : Nat) : shape message ∉ (nameProblems names position name).1 := by
  fun_cases nameProblems names position name <;> simp [*]

theorem shape_not_mem_scoreProblems (message : String) (position : Nat) (entry : Entry) :
    shape message ∉ scoreProblems position entry := by
  rw [scoreProblems]
  split
  · split
    · simp
    · split
      · split <;> simp
      · simp
  · simp

theorem shape_not_mem_entryProblems (message : String) (names : NamesMet) (position : Nat)
    (entries : List Entry) : shape message ∉ entryProblems names position entries := by
  induction entries generalizing names position with
  | nil => exact List.not_mem_nil
  | cons entry rest induction =>
      rw [entryProblems, List.mem_append, List.mem_append]
      intro member
      rcases member with (named | scored) | later
      · exact shape_not_mem_nameProblems _ _ _ _ named
      · exact shape_not_mem_scoreProblems _ _ _ scored
      · exact induction _ _ later

theorem shape_not_mem_contentProblems (message : String) (integerSize : Bool) :
    shape message ∉ configuration.contentProblems integerSize := by
  simp only [contentProblems, List.mem_append, not_or]
  refine ⟨⟨⟨?_, ?_⟩, shape_not_mem_entryProblems _ _ _ _⟩, ?_⟩
  all_goals split <;> simp

theorem head?_of_mem_entriesShapeProblems {position : Nat} {items : List Json} {reason : String}
    (member : reason ∈ entriesShapeProblems position items) : reason.toList.head? = some '.' := by
  induction items generalizing position with
  | nil => cases member
  | cons item rest induction =>
      rw [entriesShapeProblems, List.mem_append] at member
      rcases member with here | later
      · rcases List.mem_map.mp here with ⟨inner, _, rfl⟩
        rw [String.toList_append, String.toList_append, String.toList_append, List.append_assoc,
          List.append_assoc]
        rfl
      · exact induction later

theorem head?_of_mem_fieldProblems {name reason : String} {required : FieldType}
    (member : reason ∈ fieldProblems fields name required ".image_size") :
    reason.toList.head? = some '.' ∨ reason.toList.head? = some 'm' := by
  unfold fieldProblems at member
  split at member
  · rw [List.mem_singleton.mp member, String.toList_append, String.toList_append,
      String.toList_append]
    exact .inr rfl
  · split at member
    · cases member
    · rw [List.mem_singleton.mp member]
      simp only [String.toList_append]
      exact .inl rfl

/-- A problem of the form begins with its place, or says that a field is missing. -/
theorem head?_of_mem_shapeProblems {reason : String} (member : reason ∈ shapeProblems fields) :
    reason.toList.head? = some '.' ∨ reason.toList.head? = some 'm' := by
  rw [shapeProblems, List.mem_append] at member
  rcases member with listed | sized
  · unfold entryFieldProblems at listed
    split at listed
    · exact .inl (List.mem_singleton.mp listed ▸ rfl)
    · exact .inl (head?_of_mem_entriesShapeProblems listed)
    · exact .inl (List.mem_singleton.mp listed ▸ rfl)
  · unfold sizeFieldProblems at sized
    split at sized
    · cases sized
    · cases sized
    · rcases List.mem_append.mp sized with wide | high
      · exact head?_of_mem_fieldProblems wide
      · exact head?_of_mem_fieldProblems high
    · exact .inl (List.mem_singleton.mp sized ▸ rfl)

/-- No problem of the form reads like the refusal of a document of sound form. -/
theorem beginsWith_of_mem_shapeProblems {reason : String} (member : reason ∈ shapeProblems fields) :
    Text.beginsWith reason "configuration does not deserialize" = false := by
  -- The first characters differ already.
  refine Bool.eq_false_iff.mpr fun begins => ?_
  rcases List.isPrefixOf_iff_prefix.mp begins with ⟨rest, same⟩
  have head : reason.toList.head? = some 'c' := same ▸ rfl
  rcases head?_of_mem_shapeProblems member with placed | missing
  · exact absurd (placed.symm.trans head) (by decide)
  · exact absurd (missing.symm.trans head) (by decide)

theorem beginsWith_of_shape_mem_documentProblems {document : Json} {message : String}
    (isCanonical : document.IsCanonical) (member : shape message ∈ documentProblems document) :
    Text.beginsWith message "configuration does not deserialize" = false := by
  cases document with
  | object fields =>
      cases sound : shapeProblems fields with
      | nil =>
          rcases shapeProblems_eq_nil_iff.mp sound with ⟨configuration, form⟩
          rw [documentProblems_of_hasForm isCanonical form] at member
          exact absurd member (shape_not_mem_contentProblems _ _)
      | cons reason others =>
          simp only [documentProblems, sound] at member
          rw [← sound] at member
          rcases List.mem_map.mp member with ⟨problem, problemMember, same⟩
          exact ConfigurationProblem.shape.inj same ▸
            beginsWith_of_mem_shapeProblems problemMember
  | null =>
      cases List.mem_singleton.mp member
      decide
  | _ =>
      cases List.mem_singleton.mp member
      decide

/-- The check of a document agrees with that of a schema. Of the JSON of a schema it tells the
problems of the schema; and every document of sound form is read, once it is sanitized, so that the
reader never refuses what the check of the form lets pass. -/
theorem documentProblems_agrees :
    (∀ configuration : Configuration,
      documentProblems configuration.toJson.canonical = configuration.problems) ∧
    ∀ document : Json,
      (∀ fields, document.canonical = .object fields → shapeProblems fields = [] →
        ∃ configuration, ofJson? (sanitize fields) = some configuration) ∧
      ∀ message, shape message ∈ documentProblems document.canonical →
        Text.beginsWith message "configuration does not deserialize" = false := by
  constructor
  · intro configuration
    have isCanonical := Json.isCanonical_canonical configuration.toJson
    have ⟨form, written⟩ := hasForm_toJson configuration
    rcases form.entries with ⟨items, listed, _⟩
    rcases Json.exists_eq_object_of_get? listed with ⟨fields, same⟩
    rw [same] at isCanonical form written ⊢
    rw [documentProblems_of_hasForm isCanonical form, hasIntegerSize_of_writesWords written,
      problems]
  intro document
  have isCanonical := Json.isCanonical_canonical document
  refine ⟨?_, fun message => beginsWith_of_shape_mem_documentProblems isCanonical⟩
  intro fields same sound
  rw [same] at isCanonical
  rcases shapeProblems_eq_nil_iff.mp sound with ⟨configuration, form⟩
  exact ⟨configuration, form.ofJson?_sanitize isCanonical⟩

/-- A document with an image size and one rating, whose numbers are written as given. -/
def rated (width height maximumScore : Json) : Json :=
  .object [("image_size", .object [("width", width), ("height", height)]),
    ("entries", .array [.object [("name", .string "stars"), ("type", .string "rating"),
      ("sorting_method", .string "as_number"), ("optional", .bool false),
      ("maximum_score", maximumScore)]])]

/-- Images of 2.5 by -3 pixels and at most 4.5 stars. -/
def fractional : Json :=
  rated (.float ⟨0x4004000000000000⟩) (.int (-3)) (.float ⟨0x4012000000000000⟩)

theorem documentProblems_agrees_fractional :
    ∃ fields, fractional.canonical = .object fields ∧ shapeProblems fields = [] ∧
      ∃ configuration, ofJson? (sanitize fields) = some configuration := by
  have formed : ∃ fields, fractional.canonical = .object fields ∧ shapeProblems fields = [] :=
    ⟨_, rfl, by decide +kernel⟩
  rcases formed with ⟨fields, same, sound⟩
  exact ⟨fields, same, sound, (documentProblems_agrees.2 fractional).1 fields same sound⟩

/-- What is accepted has the form of a schema without problems. -/
theorem exists_hasForm_of_accepted {document : Json} (isCanonical : document.IsCanonical)
    (accepted : documentProblems document = []) :
    ∃ configuration : Configuration, configuration.HasForm document ∧
      configuration.problems = [] := by
  cases document with
  | object fields =>
      cases sound : shapeProblems fields with
      | nil =>
          rcases shapeProblems_eq_nil_iff.mp sound with ⟨configuration, form⟩
          refine ⟨configuration, form, ?_⟩
          rw [documentProblems_of_hasForm isCanonical form] at accepted
          rw [problems]
          simp only [contentProblems, List.append_eq_nil_iff] at accepted ⊢
          exact ⟨⟨⟨accepted.1.1.1, rfl⟩, accepted.1.2⟩, accepted.2⟩
      | cons reason others => simp [documentProblems, sound] at accepted
  | _ => simp [documentProblems] at accepted

/-- A document without problems is read exactly when all its numbers are written as integers of 32
bits, and the schema that is read has no problems. -/
theorem reads_iff_writesWords {document : Json}
    (accepted : documentProblems document.canonical = []) :
    ((ofJson? document.canonical).isSome = true ↔ WritesWords document.canonical) ∧
      ∀ configuration, ofJson? document.canonical = some configuration →
        configuration.problems = [] := by
  have isCanonical := Json.isCanonical_canonical document
  rcases exists_hasForm_of_accepted isCanonical accepted with ⟨checked, form, fine⟩
  have written : ∀ configuration, ofJson? document.canonical = some configuration →
      WritesWords document.canonical :=
    fun configuration read => writesWords_of_ofJson? isCanonical form read
  rw [Option.isSome_iff_exists]
  refine ⟨⟨fun ⟨configuration, read⟩ => written configuration read, fun words => ?_⟩,
    fun configuration read => ?_⟩
  · exact ⟨checked, form.ofJson?_eq isCanonical words⟩
  · have same : checked = configuration := Option.some.inj
      ((form.ofJson?_eq isCanonical (written configuration read)).symm.trans read)
    exact same ▸ fine

theorem reads_rated : documentProblems (rated (.int 64) (.int 48) (.int 5)).canonical = [] ∧
    WritesWords (rated (.int 64) (.int 48) (.int 5)).canonical ∧
      ∃ configuration, ofJson? (rated (.int 64) (.int 48) (.int 5)).canonical = some configuration ∧
        configuration.problems = [] := by
  have accepted : documentProblems (rated (.int 64) (.int 48) (.int 5)).canonical = [] := by
    decide +kernel
  have isRead : (ofJson? (rated (.int 64) (.int 48) (.int 5)).canonical).isSome = true := by
    decide +kernel
  have ⟨reads, sound⟩ := reads_iff_writesWords accepted
  rcases Option.isSome_iff_exists.mp isRead with ⟨configuration, read⟩
  exact ⟨accepted, reads.mp isRead, configuration, read, sound configuration read⟩

/-- At most 5.0 stars, and a width of more than 32 bits, pass the check and are not read. -/
theorem not_reads_rated :
    let pointed := rated (.int 64) (.int 48) (.float ⟨0x4014000000000000⟩)
    let wide := rated (.int 5000000000) (.int 48) (.int 5)
    (documentProblems pointed.canonical = [] ∧ ofJson? pointed.canonical = none) ∧
      documentProblems wide.canonical = [] ∧ ofJson? wide.canonical = none := by
  decide +kernel

end Configuration

end SealedCatalog
