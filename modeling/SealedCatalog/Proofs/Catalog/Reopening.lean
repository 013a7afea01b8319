import SealedCatalog.Proofs.Catalog.Change
import SealedCatalog.Proofs.Codec.Decoding
import SealedCatalog.Proofs.Codec.RoundTrip

/-! When a catalog that was read from a text can be read again after its records were changed. Its
settings, schema and pools of images keep what makes that possible, so only the records, the tags
and the depth of the settings decide. -/

namespace SealedCatalog.Catalog

private theorem indicesFit_of_isRevivable {data : CatalogData}
    (records : ∀ field ∈ data.records.toList, Marker.IsPlain field.1 ∧ field.2.IsRevivable) :
    data.IndicesFit := by
  intro field member entry inside
  have revivable := ((records field member).2.entries entry inside).2
  unfold EntryValue.IndicesFit
  split
  next indices written =>
    rw [written] at revivable
    exact revivable
  · trivial

/-- What a catalog that was read from a text can be written to is read as the same catalog exactly
when no marker stands among its records and tags and its settings are not nested too deeply. -/
theorem reopens_iff {text : String} {catalog : Catalog}
    (accepted : Codable.ofText text = .ok catalog.data)
    (integral : catalog.data.settings.IsIntegral) (changes : List Change) :
    Codable.ofText (Codable.toText (catalog.applyAll changes).data) =
        .ok (catalog.applyAll changes).data ↔
      (∀ field ∈ (catalog.applyAll changes).data.records.toList,
          Marker.IsPlain field.1 ∧ field.2.IsRevivable) ∧
        (∀ pool ∈ (catalog.applyAll changes).data.tags, pool.IsRevivable) ∧
        catalog.data.settings.depth + 2 ≤ Json.maxDepth := by
  rcases catalog.exists_applyAll_eq changes with ⟨tags, records, run⟩
  have decoded := CatalogData.isDecoded_of_ofText accepted
  rw [run]
  constructor
  · intro reopened
    have fit := (CatalogData.isDecoded_of_ofText reopened).indices
    have ⟨revivable, shallow⟩ :=
      (CatalogData.ofText_toText_iff_isRevivable fit integral).mp reopened
    exact ⟨revivable.records, revivable.tags, shallow⟩
  · rintro ⟨plainRecords, plainTags, shallow⟩
    refine (CatalogData.ofText_toText_iff_isRevivable (indicesFit_of_isRevivable plainRecords)
      integral).mpr ⟨?_, shallow⟩
    exact ⟨decoded.settings, decoded.configuration, decoded.images, plainTags, plainRecords⟩

/-! A catalog of titles, one of which may spell bytes -/

/-- A catalog without records, whose records are to have a title. -/
def titled : Catalog :=
  let key : CipherKey := ⟨List.replicate keyLength 0, .both, List.length_replicate⟩
  { data := CatalogData.new (.ofEntries [.string "title" .unset])
    databaseKey := key
    userKey := key
    protection := default
    imageSupport := false }

/-- The import of a record that has the given title. -/
def importTitle (title : String) : Change :=
  .imported "a" (Json.object [("title", .string title)]).render false

private theorem integral_titled : titled.data.settings.IsIntegral :=
  .object (List.forall_mem_nil _)

private theorem accepted_titled :
    Codable.ofText (Codable.toText titled.data) = .ok titled.data := by
  have plain : ∀ text ∈ titled.data.texts, Marker.IsPlain text := by decide
  have canonical : titled.data.settings.IsCanonical := .object .nil (List.forall_mem_nil _)
  have fit : titled.data.IndicesFit := by decide
  have revivable := CatalogData.isRevivable_of_texts canonical fit plain
  exact (CatalogData.ofText_toText_iff_isRevivable fit integral_titled).mpr
    ⟨revivable, by decide⟩

theorem parse?_title (title : String) :
    Json.parse? (Json.object [("title", .string title)]).render =
      some (.object [("title", .string title)]) := by
  have integral : (Json.object [("title", .string title)]).IsIntegral :=
    .object (List.forall_mem_singleton.mpr (.string title))
  rw [Json.parse?_render integral]
  rfl

/-- A record that has a title. -/
def titledRecord (title : String) : Record :=
  ⟨none, Dict.ofList [("title", .string title)]⟩

theorem importRecord_title {title : String} (present : title.isEmpty = false) :
    SealedCatalog.importRecord (.ofEntries [.string "title" .unset])
      (Json.object [("title", .string title)]).render TagPool.empty false =
        .ok (titledRecord title, TagPool.empty) := by
  have entry : Import.loadString (.string "title" .unset) (.string title) =
      .ok (.string title) := by
    rw [Import.loadString, Import.requirePresent, present]
    rfl
  have loaded : Import.loadEntry (.string "title" .unset) TagPool.empty (.string title) =
      .ok (.value (.string title)) := by
    show (do Import.requireSortable _ _ (← Import.loadString _ _)) = _
    rw [entry]
    rfl
  have kept : Record.keep Dict.empty "title" (.string title) =
      Dict.ofList [("title", .string title)] := by
    rw [Record.keep, EntryValue.isEmpty, present]
    rfl
  rw [SealedCatalog.importRecord, parse?_title, titledRecord, ← kept]
  show (do
    let loaded ← (do
      let loaded ← Import.loadEntry (.string "title" .unset) TagPool.empty (.string title)
      return [("title", loaded)])
    return ((⟨none, (Import.store TagPool.empty Dict.empty loaded).2⟩ : Record),
      (Import.store TagPool.empty Dict.empty loaded).1)) = _
  rw [loaded]
  rfl

private theorem data_importTitle {title : String} (present : title.isEmpty = false) :
    (titled.applyAll [importTitle title]).data =
      titled.data.withRecord "a" (titledRecord title) := by
  have configuration : titled.data.configuration = .ofEntries [.string "title" .unset] := rfl
  have pool : titled.data.tagPool = TagPool.empty := rfl
  show (importRecord titled "a" _ false).1.data = _
  rw [importRecord, configuration, pool, importRecord_title present]
  rfl

/-- An imported title that spells bytes makes a catalog that cannot be read from its text. -/
theorem not_reopens_importTitle :
    Codable.ofText (Codable.toText titled.data) = .ok titled.data ∧
      titled.data.settings.IsIntegral ∧
      ¬ Codable.ofText (Codable.toText (titled.applyAll [importTitle "base64://AA=="]).data) =
        .ok (titled.applyAll [importTitle "base64://AA=="]).data := by
  refine ⟨accepted_titled, integral_titled, ?_⟩
  have fit : (titled.data.withRecord "a" (titledRecord "base64://AA==")).IndicesFit := by decide
  rw [data_importTitle (by decide),
    CatalogData.ofText_toText_iff_isRevivable fit integral_titled]
  rintro ⟨revivable, _⟩
  have stored := revivable.records ("a", titledRecord "base64://AA==") (by decide)
  have title : Marker.spellsBytes "base64://AA==" = false :=
    (stored.2.entries ("title", .string "base64://AA==") (by decide)).2
  exact absurd title (by decide)

/-- Another title leaves a catalog that can. -/
theorem reopens_importTitle :
    (Codable.ofText (Codable.toText titled.data) = .ok titled.data ∧
      titled.data.settings.IsIntegral) ∧
      Codable.ofText (Codable.toText (titled.applyAll [importTitle "base64:/"]).data) =
        .ok (titled.applyAll [importTitle "base64:/"]).data := by
  refine ⟨⟨accepted_titled, integral_titled⟩,
    (reopens_iff accepted_titled integral_titled [importTitle "base64:/"]).mpr ?_⟩
  rw [data_importTitle (by decide)]
  refine ⟨?_, ?_, by decide⟩
  · intro field member
    have same : field = ("a", titledRecord "base64:/") := List.mem_singleton.mp member
    rw [same]
    refine ⟨by decide, by simp [titledRecord], fun entry inside => ?_⟩
    have title : entry = ("title", .string "base64:/") := List.mem_singleton.mp inside
    have plain : Marker.spellsBytes "base64:/" = false := by decide
    rw [title]
    exact ⟨by decide, plain⟩
  · intro pool same
    cases same
    exact List.forall_mem_nil _

end SealedCatalog.Catalog
