import SealedCatalog.Proofs.Catalog.Reopening
import SealedCatalog.Proofs.Json.Reading

/-! Changes that are refused. A draft with problems leaves the catalog as it is. So does a text that
is refused, unless the catalog has no pool of tags: then it gets an empty one, and what is sealed is
not what it was. -/

namespace SealedCatalog

/-! Fields of a text -/

namespace Json

theorem writeMoreFields_append (left right : List (String × Json)) :
    writeMoreFields (left ++ right) = writeMoreFields left ++ writeMoreFields right := by
  induction left with
  | nil => rfl
  | cons field rest induction =>
      rw [List.cons_append, writeMoreFields, writeMoreFields, induction]
      simp

/-- Fields are written as more fields are, but for the first comma. -/
theorem writeFields_eq_tail (fields : List (String × Json)) :
    writeFields fields = (writeMoreFields fields).tail := by
  cases fields with
  | nil => rfl
  | cons field rest => rfl

/-- An object with a field more has another text. -/
theorem render_insert_ne (before after : List (String × Json)) (field : String × Json) :
    (object (before ++ field :: after)).render ≠ (object (before ++ after)).render := by
  intro same
  have lengths := congrArg List.length (String.ofList_injective same)
  have written : 1 < (writeMoreFields [field]).length := by
    simp [writeMoreFields, writeString]
  rw [← List.singleton_append] at lengths
  simp only [write, List.length_cons, List.length_append, writeFields_eq_tail, List.length_tail,
    writeMoreFields_append] at lengths
  omega

end Json

namespace CatalogData

theorem toText_withTags_ne {data : CatalogData} (absent : data.tags = none) (pool : TagPool) :
    Codable.toText (data.withTags pool) ≠ Codable.toText data := by
  let fields := [("protection", Json.object [("encrypted_counter", .ofUInt64 data.writeCounter)]),
    ("configurations", .object [("global", data.settings), ("entry", data.configuration.toJson)])] ++
      optionalField "images" ImagePools.toJson data.images
  let records := [("data", data.records.toJson Record.toJson)]
  have without : Codable.encode data = .object (fields ++ records) := by
    show data.toJson = _
    rw [toJson, absent]
    simp [fields, records, optionalField]
  have inserted : Codable.encode (data.withTags pool) =
      .object (fields ++ ("tags", pool.toJson) :: records) := by
    show (data.withTags pool).toJson = _
    simp [toJson, withTags, fields, records, optionalField]
  rw [Codable.toText, Codable.toText, without, inserted]
  exact Json.render_insert_ne fields records _

end CatalogData

namespace Catalog

/-- The draft has problems, or the text does not describe a record. -/
def Change.IsRefused (catalog : Catalog) : Change → Prop
  | .drafted id draft imageSupplied =>
      ∃ problems, catalog.insertDraft id draft imageSupplied = .error problems
  | .imported id text imageSupplied =>
      ∃ reason, (catalog.importRecord id text imageSupplied).2 = .error reason

def Change.isImport : Change → Bool
  | .drafted _ _ _ => false
  | .imported _ _ _ => true

theorem apply_of_isRefused {catalog : Catalog} {change : Change}
    (refused : change.IsRefused catalog) :
    catalog.apply change = if change.isImport then catalog.withPool else catalog := by
  cases change with
  | drafted id draft imageSupplied =>
      rcases refused with ⟨problems, found⟩
      rw [apply, found]
      rfl
  | imported id text imageSupplied =>
      rcases refused with ⟨reason, failed⟩
      rw [importRecord] at failed
      rw [apply, importRecord]
      cases imported : SealedCatalog.importRecord catalog.data.configuration text
          catalog.data.tagPool imageSupplied with
      | ok result =>
          rw [imported] at failed
          cases failed
      | error other => rfl

theorem data_withPool_eq_iff {catalog : Catalog} :
    catalog.withPool.data = catalog.data ↔ catalog.data.tags.isSome := by
  rcases catalog with ⟨⟨counter, settings, configuration, images, tags, records⟩, _, _, _, _⟩
  cases tags <;> simp [withPool, CatalogData.withTags, CatalogData.tagPool]

theorem toText_withPool_eq_iff {catalog : Catalog} :
    Codable.toText catalog.withPool.data = Codable.toText catalog.data ↔
      catalog.data.tags.isSome := by
  constructor
  · intro same
    cases tags : catalog.data.tags with
    | none => exact absurd same (CatalogData.toText_withTags_ne tags _)
    | some pool => rfl
  · intro present
    rw [data_withPool_eq_iff.mpr present]

/-- A refused change leaves the data of a catalog, and the text that is sealed, as they were exactly
when it is a draft or the catalog has a pool of tags. A refused text adds an empty pool where there
was none, and nothing else. -/
theorem refused_preserves_iff {catalog : Catalog} {change : Change}
    (refused : change.IsRefused catalog) :
    ((catalog.apply change).data = catalog.data ↔
        (change.isImport → catalog.data.tags.isSome)) ∧
      (Codable.toText (catalog.apply change).data = Codable.toText catalog.data ↔
        (change.isImport → catalog.data.tags.isSome)) ∧
      (change.isImport → catalog.data.tags = none →
        (catalog.apply change).data = catalog.data.withTags TagPool.empty) := by
  rw [apply_of_isRefused refused]
  cases change.isImport with
  | false => simp
  | true =>
      simp only [if_true, forall_const]
      refine ⟨data_withPool_eq_iff, toText_withPool_eq_iff, fun absent => ?_⟩
      rw [withPool, CatalogData.tagPool, absent]
      rfl

/-! A text that describes no record -/

/-- The catalog of titles with the given pool of tags, or with none. -/
def unfilled (tags : Option TagPool) : Catalog :=
  { titled with data := { titled.data with tags } }

def importList : Change :=
  .imported "a" "[]" false

private theorem isRefused_importList (catalog : Catalog) : importList.IsRefused catalog := by
  have written : (Json.array []).render = "[]" := by decide
  have parsed : Json.parse? "[]" = some (.array []) := by
    rw [← written]
    exact Json.parse?_render (.array (List.forall_mem_nil _))
  have refused : (catalog.importRecord "a" "[]" false).2 = .error (.notImported .notObject) := by
    rw [importRecord, SealedCatalog.importRecord, parsed]
  exact ⟨_, refused⟩

/-- Where there is a pool of tags, the text changes nothing. -/
theorem refused_preserves_pooled :
    importList.IsRefused (unfilled (some TagPool.empty)) ∧
      ((unfilled (some TagPool.empty)).apply importList).data =
        (unfilled (some TagPool.empty)).data := by
  have refused := isRefused_importList (unfilled (some TagPool.empty))
  exact ⟨refused, (refused_preserves_iff refused).1.mpr fun _ => rfl⟩

/-- Where there is none, the text changes the data and what is sealed. -/
theorem not_refused_preserves_poolless :
    importList.IsRefused (unfilled none) ∧
      ((unfilled none).apply importList).data ≠ (unfilled none).data ∧
      Codable.toText ((unfilled none).apply importList).data ≠
        Codable.toText (unfilled none).data := by
  have refused := isRefused_importList (unfilled none)
  have absent : ¬ (unfilled none).data.tags.isSome := Bool.false_ne_true
  refine ⟨refused, ?_⟩
  rw [apply_of_isRefused refused]
  exact ⟨mt data_withPool_eq_iff.mp absent, mt toText_withPool_eq_iff.mp absent⟩

end Catalog

end SealedCatalog
