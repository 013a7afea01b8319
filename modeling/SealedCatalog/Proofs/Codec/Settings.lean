import SealedCatalog.Proofs.Codec.Decoding
import SealedCatalog.Proofs.Codec.RoundTrip
import SealedCatalog.Proofs.Json.Depth

/-! How deep the settings are that are read from a text. The text of a catalog has them no higher
than they are written again, so that only bytes that a string of them spells, which become an array,
can bring them out of the reach of the reader. -/

namespace SealedCatalog

namespace Json

theorem IsReadable.of_mem {limit : Nat} {items : List Json}
    (readable : IsReadable limit (.array items)) {item : Json} (member : item ∈ items) :
    IsReadable (limit - 1) item := by
  cases limit with
  | zero => exact absurd readable.shallow (Nat.not_succ_le_zero _)
  | succ limit => exact IsReadable.array_iff.mp readable item member

theorem isReadable_ofBytes (data : Bytes) : IsReadable 1 (ofBytes data) := by
  rw [ofBytes, IsReadable.array_iff]
  intro item member
  rcases List.mem_map.mp member with ⟨byte, _, rfl⟩
  refine ⟨.int ?_, Nat.le_refl 0⟩
  have small := byte.toNat_lt
  rw [IsStorable, leastInt_eq, greatestInt_eq]
  omega

/-- Revival makes a document deeper only by the bytes that its strings spell. -/
theorem isReadable_of_revive {extra limit : Nat} {document revived : Json}
    (plain : extra = 0 → ∀ text ∈ document.texts, Marker.spellsBytes text = false)
    (readable : IsReadable limit document) (found : document.revive = .ok revived) :
    IsReadable (limit + extra) revived := by
  induction document generalizing limit revived with
  | string text =>
      rcases revive_string_cases found with ⟨spelled, data, rfl⟩ | ⟨_, rfl⟩
      · refine (isReadable_ofBytes data).mono ?_
        by_contra none
        have unspelled := plain (by omega) text (List.mem_singleton_self text)
        rw [spelled] at unspelled
        cases unspelled
      · exact ⟨.string text, Nat.zero_le _⟩
  | array items induction =>
      cases limit with
      | zero => exact absurd readable.shallow (Nat.not_succ_le_zero _)
      | succ limit =>
          rcases exists_revivedItems found with ⟨settled, all, outer⟩
          have each : ∀ result ∈ settled, IsReadable (limit + extra) result := by
            intro result member
            rcases exists_of_mem_revivedItems all member with ⟨item, itemMember, inner⟩
            exact induction item itemMember
              (fun none => forall_mem_textsOfItems.mp (plain none) item itemMember)
              (IsReadable.array_iff.mp readable item itemMember) inner
          rw [Nat.succ_add]
          rcases ofRevivedItems_cases outer with ⟨_, rfl⟩ | ⟨fields, rfl, pairs⟩
          · exact IsReadable.array_iff.mpr each
          · refine IsReadable.object_iff.mpr fun field member => ?_
            exact ((each _ (pairs field member)).of_mem (by simp)).mono (Nat.sub_le _ 1)
  | object fields induction =>
      cases limit with
      | zero => exact absurd readable.shallow (Nat.not_succ_le_zero _)
      | succ limit =>
          rcases exists_revivedFields found with ⟨settled, all, rfl⟩
          rw [Nat.succ_add]
          refine IsReadable.object_iff.mpr fun result member => ?_
          rcases exists_of_mem_revivedFields all member with ⟨field, fieldMember, _, inner⟩
          exact induction field fieldMember
            (fun none => forall_mem_textsOfFields.mp (plain none) field fieldMember)
            (IsReadable.object_iff.mp readable field fieldMember) inner
  | _ =>
      cases found
      exact readable.mono (Nat.le_add_right _ _)

theorem isReadable_of_revive_of_plain {limit : Nat} {document revived : Json}
    (plain : ∀ text ∈ document.texts, Marker.spellsBytes text = false)
    (readable : IsReadable limit document) (found : document.revive = .ok revived) :
    IsReadable limit revived :=
  @isReadable_of_revive 0 limit document revived (fun _ => plain) readable found

theorem isReadable_succ_of_revive {limit : Nat} {document revived : Json}
    (readable : IsReadable limit document) (found : document.revive = .ok revived) :
    IsReadable (limit + 1) revived :=
  isReadable_of_revive (fun one => absurd one Nat.one_ne_zero) readable found

/-! Parts of structures -/

/-- The document has the part under one of the names, or, as a list, in the place. -/
inductive HasPart (names : List String) (place : Nat) : Json → Json → Prop where
  | field {fields : List (String × Json)} {name : String} {part : Json} (listed : name ∈ names)
      (member : (name, part) ∈ fields) : HasPart names place (.object fields) part
  | item {items : List Json} {part : Json} (found : items[place]? = some part) :
      HasPart names place (.array items) part

theorem IsReadable.of_hasPart {limit : Nat} {names : List String} {place : Nat}
    {document part : Json} (readable : IsReadable (limit + 1) document)
    (hasPart : HasPart names place document part) : IsReadable limit part := by
  cases hasPart with
  | field _ member => exact IsReadable.object_iff.mp readable _ member
  | item found => exact IsReadable.array_iff.mp readable part (List.mem_of_getElem? found)

private theorem hasPart_of_field? {names : List String} {fields : List (String × Json)}
    {part : Json} (found : field? names fields = some (some part)) (place : Nat) :
    HasPart names place (.object fields) part := by
  rw [field?] at found
  split at found
  · cases found
  next field single =>
    cases found
    have member : field ∈ fields.filter fun field => names.contains field.1 :=
      single ▸ List.mem_singleton_self field
    rcases List.mem_filter.mp member with ⟨inside, listed⟩
    exact .field (List.contains_iff_mem.mp listed) inside
  · cases found

theorem hasPart_of_fields? {names : List (List String)} {document : Json}
    {parts : List (Option Json)} (found : fields? names document = some parts) {place : Nat}
    {spellings : List String} (asked : names[place]? = some spellings) {part : Json}
    (given : parts[place]? = some (some part)) : HasPart spellings place document part := by
  unfold fields? at found
  split at found
  next fields =>
    rcases exists_getElem?_of_mapM found given with ⟨others, same, read⟩
    cases asked.symm.trans same
    exact hasPart_of_field? read place
  next items =>
    split at found
    next short =>
      cases found
      refine .item ?_
      rcases Nat.lt_or_ge place items.length with inside | beyond
      · simpa [List.getElem?_append, inside] using given
      · rw [List.getElem?_append_right (by simpa using beyond)] at given
        cases List.eq_of_mem_replicate (List.mem_of_getElem? given)
    · cases found
  · cases found

theorem exists_of_hasPart_canonical {names : List String} {place : Nat}
    {fields : List (String × Json)} {part : Json}
    (hasPart : HasPart names place (object fields).canonical part) :
    ∃ field ∈ fields, field.1 ∈ names ∧ field.2.canonical = part := by
  rw [canonical_object] at hasPart
  cases hasPart with
  | field listed member =>
      rcases exists_of_mem_canonical member with ⟨original, inside, same⟩
      cases same
      exact ⟨original, inside, listed, rfl⟩

/-- The pair that a map denotes a field by was revived from a pair. -/
private theorem exists_original_of_pair {item : Json} {name : String} {part : Json}
    (found : item.revive = .ok (.array [.string name, part])) {limit : Nat}
    (readable : IsReadable limit item) :
    ∃ original, original.revive = .ok part ∧ IsReadable (limit - 1) original := by
  cases item with
  | string text =>
      rcases revive_string_cases found with ⟨_, data, same⟩ | ⟨_, same⟩
      · cases data <;> simp [ofBytes] at same
      · cases same
  | array items =>
      rcases exists_revivedItems found with ⟨settled, all, outer⟩
      rcases ofRevivedItems_cases outer with ⟨_, same⟩ | ⟨fields, same, _⟩
      · cases same
        rcases exists_of_mem_revivedItems all (List.mem_cons_of_mem _ List.mem_cons_self) with
          ⟨original, member, inner⟩
        exact ⟨original, inner, readable.of_mem member⟩
      · cases same
  | object fields =>
      rcases exists_revivedFields found with ⟨settled, _, same⟩
      cases same
  | _ => cases found

/-- A part of a revived document was revived from the same part of the document, or from one that
stood a level deeper, in the pair of a map. -/
theorem exists_part_of_revive {limit : Nat} {document revived : Json}
    (readable : IsReadable (limit + 1) document) (found : document.revive = .ok revived)
    {names : List String} {place : Nat} {part : Json} (hasPart : HasPart names place revived part) :
    ∃ original, original.revive = .ok part ∧
      (HasPart names place document original ∨ IsReadable (limit - 1) original) := by
  cases document with
  | string text =>
      rcases revive_string_cases found with ⟨_, data, rfl⟩ | ⟨_, rfl⟩
      · -- The parts of a list of bytes are numbers.
        cases hasPart with
        | item there =>
            rcases List.mem_map.mp (List.mem_of_getElem? there) with ⟨byte, member, rfl⟩
            have bytes := IsReadable.array_iff.mp (isReadable_ofBytes data) _
              (List.mem_map_of_mem member)
            exact ⟨_, rfl, .inr (bytes.mono (Nat.zero_le _))⟩
      · cases hasPart
  | array items =>
      rcases exists_revivedItems found with ⟨settled, all, outer⟩
      rcases ofRevivedItems_cases outer with ⟨_, rfl⟩ | ⟨fields, rfl, pairs⟩
      · cases hasPart with
        | item there =>
            rcases exists_getElem?_of_mapM all there with ⟨original, stands, inner⟩
            exact ⟨original, revive_eq_ok inner, .inl (.item stands)⟩
      · cases hasPart with
        | field _ member =>
            rcases exists_of_mem_revivedItems all (pairs _ member) with ⟨item, itemMember, inner⟩
            rcases exists_original_of_pair inner (IsReadable.array_iff.mp readable item itemMember)
              with ⟨original, same, room⟩
            exact ⟨original, same, .inr room⟩
  | object fields =>
      rcases exists_revivedFields found with ⟨settled, all, rfl⟩
      cases hasPart with
      | field listed member =>
          rcases exists_of_mem_revivedFields all member with ⟨⟨name, original⟩, there, rfl, inner⟩
          exact ⟨original, inner, .inl (.field listed there)⟩
  | _ =>
      cases found
      cases hasPart

end Json

namespace CatalogData

open Json (HasPart IsReadable)

/-- No string spells bytes among the settings, as they stand in the document of a catalog. -/
def SpellsNoBytes (document : Json) : Prop :=
  ∀ configurations settings, HasPart ["configurations"] 1 document configurations →
    HasPart ["global"] 0 configurations settings →
      ∀ text ∈ settings.texts, Marker.spellsBytes text = false

/-- What is read as settings was revived from settings that stand as high, or from a part that
stands deeper. -/
private theorem isReadable_of_hasParts {limit : Nat} {document revived : Json}
    (spellsNoBytes : SpellsNoBytes document) (readable : IsReadable (limit + 4) document)
    (found : document.revive = .ok revived) {configurations settings : Json}
    (outer : HasPart ["configurations"] 1 revived configurations)
    (inner : HasPart ["global"] 0 configurations settings) : IsReadable (limit + 2) settings := by
  rcases Json.exists_part_of_revive readable found outer with ⟨middle, revivedMiddle, place⟩
  rcases place with stands | deeper
  · have middleReadable := readable.of_hasPart stands
    rcases Json.exists_part_of_revive middleReadable revivedMiddle inner with
      ⟨original, revivedOriginal, same | lower⟩
    · exact Json.isReadable_of_revive_of_plain (spellsNoBytes middle original stands same)
        (middleReadable.of_hasPart same) revivedOriginal
    · exact Json.isReadable_succ_of_revive lower revivedOriginal
  · rcases Json.exists_part_of_revive deeper revivedMiddle inner with
      ⟨original, revivedOriginal, same | lower⟩
    · exact Json.isReadable_succ_of_revive (deeper.of_hasPart same) revivedOriginal
    · exact (Json.isReadable_succ_of_revive lower revivedOriginal).mono (by omega)

theorem isReadable_settings {text : String} {data : CatalogData}
    (found : Codable.ofText text = .ok data)
    (spellsNoBytes : ∀ document, Json.parse? text = some document → SpellsNoBytes document) :
    IsReadable (Json.maxDepth - 2) data.settings := by
  rcases Codable.exists_revive_of_ofText found with ⟨document, revived, parsed, settled, decoded⟩
  rcases Option.bind_eq_some_iff.mp decoded with ⟨parts, read, rest⟩
  split at rest
  next protection configurations images tags records =>
    rcases Option.bind_eq_some_iff.mp rest with ⟨pair, configured, rest⟩
    rcases Option.bind_eq_some_iff.mp rest with ⟨counter, _, rest⟩
    rcases Option.bind_eq_some_iff.mp rest with ⟨pools, _, rest⟩
    rcases Option.bind_eq_some_iff.mp rest with ⟨tagPool, _, rest⟩
    rcases Option.bind_eq_some_iff.mp rest with ⟨values, _, rest⟩
    cases rest
    rcases Option.bind_eq_some_iff.mp configured with ⟨middle, rfl, readMiddle⟩
    rcases Option.bind_eq_some_iff.mp readMiddle with ⟨innerParts, inner, rest⟩
    split at rest
    next settings configuration =>
      rcases Option.bind_eq_some_iff.mp rest with ⟨_, _, rest⟩
      cases rest
      refine IsReadable.canonical ?_
      cases settings with
      | none => exact ⟨.object (List.forall_mem_nil _), by decide⟩
      | some settings =>
          have outerPart : HasPart ["configurations"] 1 revived middle :=
            Json.hasPart_of_fields? read rfl rfl
          have innerPart : HasPart ["global"] 0 middle settings :=
            Json.hasPart_of_fields? inner rfl rfl
          have deepest : IsReadable (123 + 4) document := Json.isReadable_of_parse? parsed
          exact isReadable_of_hasParts (spellsNoBytes document parsed) deepest settled outerPart
            innerPart
    · cases rest
  · cases rest

end CatalogData

end SealedCatalog
