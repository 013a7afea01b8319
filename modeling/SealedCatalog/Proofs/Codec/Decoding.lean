import SealedCatalog.Proofs.Codec.CatalogData

/-! What decoded values are like. A reader that sees no markers gives plain texts, except for the
keys of dictionaries, which are read from objects as they stand. -/

namespace SealedCatalog

namespace Json

/-- Whatever the reader makes of a document without markers has the property. -/
def Guarantees (read : Json → Option α) (property : α → Prop) : Prop :=
  ∀ document value, IsUnmarked document → read document = some value → property value

theorem guarantees_string : Guarantees string? fun text => Marker.spellsBytes text = false := by
  intro document text unmarked found
  cases unmarked with
  | string plain =>
      cases found
      exact plain
  | _ => simp [string?] at found

theorem guarantees_nat (limit : Nat) : Guarantees (nat? limit) (· < limit) := by
  intro document value _ found
  unfold nat? at found
  split at found
  · split at found
    next below =>
      cases found
      exact below
    · cases found
  · cases found

section Shapes

variable {item? : Json → Option α} {property : α → Prop} (each : Guarantees item? property)

include each

theorem guarantees_list :
    Guarantees (listOf? item?) fun values => ∀ value ∈ values, property value := by
  intro document values unmarked found value member
  cases unmarked with
  | array _ unmarkedEach =>
      rcases exists_of_mem_mapM found member with ⟨item, itemMember, read⟩
      exact each item value (unmarkedEach item itemMember) read
  | _ => simp [listOf?] at found

theorem guarantees_orNull :
    Guarantees (orNull? item?) fun optional => ∀ value ∈ optional, property value := by
  intro document optional unmarked found value same
  unfold orNull? at found
  split at found
  · cases found
    simp at same
  · rcases Option.map_eq_some_iff.mp found with ⟨other, read, rfl⟩
    cases same
    exact each document value unmarked read

theorem guarantees_dict :
    Guarantees (Dict.ofJson? item?) fun dict => ∀ field ∈ dict.toList, property field.2 := by
  intro document dict unmarked found field member
  cases unmarked with
  | object unmarkedEach =>
      rcases Option.map_eq_some_iff.mp found with ⟨fields, read, rfl⟩
      rw [Dict.toList_ofList] at member
      have inside := (Dict.mem_insertFields member).resolve_left (by simp)
      rcases exists_of_mem_mapM read inside with ⟨source, sourceMember, sourceRead⟩
      rcases Option.map_eq_some_iff.mp sourceRead with ⟨value, valueRead, rfl⟩
      exact each source.2 value (unmarkedEach source sourceMember) valueRead
  | array headed _ =>
      unfold Dict.ofJson? at found
      split at found
      · cases ‹Json.array _ = Json.object _›
      next head pairs same =>
        cases same
        have other : head ≠ Marker.map := by simpa using headed
        rw [if_neg other] at found
        cases found
      · cases found
  | _ => simp [Dict.ofJson?] at found

end Shapes

theorem guarantees_texts : Guarantees (listOf? string?) Marker.IsPlainList := by
  intro document texts unmarked found
  refine ⟨?_, guarantees_list guarantees_string document texts unmarked found⟩
  cases unmarked with
  | @array items headed _ =>
      intro head
      have read : items.mapM string? = some texts := found
      cases mapM_eq_some_iff.mp read with
      | nil => simp at head
      | @cons item text rest others stepped _ =>
          rw [List.head?_cons, Option.some.injEq] at head
          cases item with
          | string first =>
              cases stepped
              exact headed (by rw [List.head?_cons, head])
          | _ => simp [string?] at stepped
  | _ => simp [listOf?] at found

/-! Structures -/

theorem isUnmarked_of_field? {names : List String} {fields : List (String × Json)}
    {part : Option Json} (unmarked : ∀ field ∈ fields, IsUnmarked field.2)
    (found : field? names fields = some part) : ∀ document ∈ part, IsUnmarked document := by
  rw [field?] at found
  split at found
  · cases found
    simp
  next field single =>
    cases found
    intro document same
    cases same
    have member : field ∈ fields.filter fun field => names.contains field.1 :=
      single ▸ List.mem_singleton_self field
    exact unmarked field (List.mem_of_mem_filter member)
  · cases found

theorem isUnmarked_of_fields? {names : List (List String)} {document : Json}
    {parts : List (Option Json)} (unmarked : IsUnmarked document)
    (found : fields? names document = some parts) :
    ∀ part ∈ parts, ∀ inner ∈ part, IsUnmarked inner := by
  intro part member
  cases unmarked with
  | object each =>
      rcases exists_of_mem_mapM found member with ⟨spellings, _, read⟩
      exact isUnmarked_of_field? each read
  | array headed each =>
      simp only [fields?, Option.ite_none_right_eq_some, Option.some.injEq] at found
      rw [← found.2] at member
      intro inner same
      rcases List.mem_append.mp member with given | missing
      · rcases List.mem_map.mp given with ⟨item, itemMember, rfl⟩
        cases same
        exact each inner itemMember
      · rw [List.eq_of_mem_replicate missing] at same
        cases same
  | _ => simp [fields?] at found

/-- What is read from a part of a structure has the property. -/
theorem of_part {read : Json → Option α} {property : α → Prop} (each : Guarantees read property)
    {names : List (List String)} {document : Json} {parts : List (Option Json)}
    (unmarked : IsUnmarked document) (found : fields? names document = some parts)
    {part : Option Json} (member : part ∈ parts) {value : α} (got : part.bind read = some value) :
    property value := by
  rcases Option.bind_eq_some_iff.mp got with ⟨inner, same, read⟩
  exact each inner value (isUnmarked_of_fields? unmarked found part member inner same) read

theorem of_optionalPart {read : Json → Option α} {property : α → Prop}
    (each : Guarantees read property) {otherwise : α} (missing : property otherwise)
    {names : List (List String)} {document : Json} {parts : List (Option Json)}
    (unmarked : IsUnmarked document) (found : fields? names document = some parts)
    {part : Option Json} (member : part ∈ parts) {value : α}
    (got : orElse? otherwise read part = some value) : property value := by
  cases part with
  | none =>
      cases got
      exact missing
  | some inner => exact of_part each unmarked found member got

end Json

open Json (Guarantees)

/-! Schemas -/

theorem EntryKind.isRevivable_of_fields {fields : List (String × Json)} {kind : EntryKind}
    (unmarked : ∀ field ∈ fields, field.2.IsUnmarked) (found : ofFields? fields = some kind) :
    kind.IsRevivable := by
  simp only [ofFields?, Option.bind_eq_bind, Option.bind_eq_some_iff] at found
  rcases found with ⟨_, _, entryType, _, rest⟩
  cases entryType with
  | string | tag =>
      simp only [Option.bind_eq_some_iff, Option.some.injEq] at rest
      rcases rest with ⟨_, _, _, _, rfl⟩
      trivial
  | rating =>
      simp only [Option.bind_eq_some_iff, Option.some.injEq] at rest
      rcases rest with ⟨_, _, _, _, part, read, hints, got, rfl⟩
      cases hints with
      | none => trivial
      | some texts =>
          cases part with
          | none => cases got
          | some document =>
              have plain := Json.isUnmarked_of_field? unmarked read document rfl
              exact Json.guarantees_orNull Json.guarantees_texts document _ plain got texts rfl

theorem Entry.guarantees_ofJson? : Guarantees ofJson? IsRevivable := by
  intro document entry unmarked found
  cases unmarked with
  | object each =>
      simp only [ofJson?, Option.bind_eq_bind, Option.bind_eq_some_iff, Option.some.injEq] at found
      rcases found with
          ⟨part, read, name, ⟨text, same, got⟩, _, _, _, _, _, _, _, _, kind, fields, rfl⟩
      have plain := Json.isUnmarked_of_field? each read text same
      exact ⟨Json.guarantees_string text name plain got,
        EntryKind.isRevivable_of_fields each fields⟩
  | _ => simp [ofJson?] at found

theorem Configuration.guarantees_ofJson? : Guarantees ofJson? IsRevivable := by
  intro document configuration unmarked found
  rcases Option.bind_eq_some_iff.mp found with ⟨parts, read, rest⟩
  split at rest
  next imageSize entries =>
    rcases Option.bind_eq_some_iff.mp rest with ⟨_, _, other⟩
    rcases Option.bind_eq_some_iff.mp other with ⟨values, got, same⟩
    cases same
    exact Json.of_part (Json.guarantees_list Entry.guarantees_ofJson?) unmarked read (by simp) got
  · cases rest

/-! Images -/

theorem ImagePool.guarantees_ofJson? :
    Guarantees ofJson? fun pool => Marker.spellsBytes pool.name = false := by
  intro document pool unmarked found
  rcases Option.bind_eq_some_iff.mp found with ⟨parts, read, rest⟩
  split at rest
  next name bitmap =>
    rcases Option.bind_eq_some_iff.mp rest with ⟨text, got, other⟩
    rcases Option.bind_eq_some_iff.mp other with ⟨_, _, same⟩
    cases same
    exact Json.of_part Json.guarantees_string unmarked read (by simp) got
  · cases rest

theorem ImagePools.guarantees_ofJson? : Guarantees ofJson? IsRevivable := by
  intro document images unmarked found
  rcases Option.bind_eq_some_iff.mp found with ⟨parts, read, rest⟩
  split at rest
  next pools =>
    rcases Option.bind_eq_some_iff.mp rest with ⟨values, got, same⟩
    cases same
    exact Json.of_part (Json.guarantees_list ImagePool.guarantees_ofJson?) unmarked read (by simp)
      got
  · cases rest

/-! Records -/

theorem EntryValue.guarantees_ofJson? : Guarantees ofJson? IndicesFit := by
  intro document value unmarked found
  cases unmarked with
  | object each =>
      simp only [ofJson?, Option.orElse_eq_orElse, Option.orElse_eq_or, Option.or_eq_some_iff]
        at found
      rcases found with text | ⟨_, indices | ⟨_, rating⟩⟩
      · simp only [string?, Option.bind_eq_bind, Option.bind_eq_some_iff, Option.some.injEq] at text
        rcases text with ⟨_, _, _, _, rfl⟩
        trivial
      · simp only [tags?, Option.bind_eq_bind, Option.bind_eq_some_iff, Option.some.injEq]
          at indices
        rcases indices with ⟨part, read, values, ⟨written, same, got⟩, rfl⟩
        have plain := Json.isUnmarked_of_field? each read written same
        exact Json.guarantees_list (Json.guarantees_nat _) written values plain got
      · simp only [rating?, Option.bind_eq_bind, Option.bind_eq_some_iff, Option.some.injEq]
          at rating
        rcases rating with ⟨_, _, _, _, _, _, _, _, rfl⟩
        trivial
  | _ => simp [ofJson?] at found

theorem Record.guarantees_ofJson? : Guarantees ofJson? IndicesFit := by
  intro document record unmarked found
  rcases Option.bind_eq_some_iff.mp found with ⟨parts, read, rest⟩
  split at rest
  next image entries =>
    rcases Option.bind_eq_some_iff.mp rest with ⟨_, _, other⟩
    rcases Option.bind_eq_some_iff.mp other with ⟨values, got, same⟩
    cases same
    have empty : ∀ field ∈ (Dict.empty : Dict EntryValue).toList, field.2.IndicesFit := by
      simp [Dict.empty]
    exact Json.of_optionalPart (Json.guarantees_dict EntryValue.guarantees_ofJson?) empty unmarked
      read (by simp) got
  · cases rest

/-! Catalogs -/

namespace CatalogData

theorem guarantees_configurations? :
    Guarantees configurations? fun pair =>
      (pair.1.IsCanonical ∧ pair.1.IsUnmarked) ∧ pair.2.IsRevivable := by
  intro document pair unmarked found
  rcases Option.bind_eq_some_iff.mp found with ⟨parts, read, rest⟩
  split at rest
  next settings configuration =>
    rcases Option.bind_eq_some_iff.mp rest with ⟨value, got, same⟩
    cases same
    refine ⟨⟨Json.isCanonical_canonical _, Json.isUnmarked_canonical ?_⟩, ?_⟩
    · cases settings with
      | none => exact .object (by simp)
      | some written =>
          exact Json.isUnmarked_of_fields? unmarked read (some written) (by simp) written rfl
    · exact Json.of_part Configuration.guarantees_ofJson? unmarked read (by simp) got
  · cases rest

/-- What a text is decoded to can be written again as far as its settings, its schema and its pools
of images go. -/
structure IsDecoded (data : CatalogData) : Prop where
  settings : data.settings.IsCanonical ∧ data.settings.IsUnmarked
  configuration : data.configuration.IsRevivable
  images : ∀ images ∈ data.images, images.IsRevivable
  indices : data.IndicesFit

theorem isDecoded_of_ofText {text : String} {data : CatalogData}
    (found : Codable.ofText text = .ok data) : data.IsDecoded := by
  rcases Codable.exists_isUnmarked_of_ofText found with ⟨document, unmarked, decoded⟩
  rcases Option.bind_eq_some_iff.mp decoded with ⟨parts, read, rest⟩
  split at rest
  next protection configurations images tags records =>
    rcases Option.bind_eq_some_iff.mp rest with ⟨pair, configured, rest⟩
    rcases Option.bind_eq_some_iff.mp rest with ⟨counter, _, rest⟩
    rcases Option.bind_eq_some_iff.mp rest with ⟨pools, imagesRead, rest⟩
    rcases Option.bind_eq_some_iff.mp rest with ⟨tagPool, _, rest⟩
    rcases Option.bind_eq_some_iff.mp rest with ⟨values, recordsRead, rest⟩
    cases rest
    have ⟨settings, configuration⟩ :=
      Json.of_part guarantees_configurations? unmarked read (by simp) configured
    have empty : ∀ field ∈ (Dict.empty : Records).toList, field.2.IndicesFit := by
      simp [Dict.empty]
    refine ⟨settings, configuration, ?_, ?_⟩
    · exact Json.of_optionalPart (Json.guarantees_orNull ImagePools.guarantees_ofJson?) (by simp)
        unmarked read (by simp) imagesRead
    · exact Json.of_optionalPart (Json.guarantees_dict Record.guarantees_ofJson?) empty unmarked
        read (by simp) recordsRead
  · cases rest

end CatalogData

end SealedCatalog
