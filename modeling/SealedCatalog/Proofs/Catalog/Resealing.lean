import SealedCatalog.Proofs.Catalog.Consistency
import SealedCatalog.Proofs.Catalog.Unlocking
import SealedCatalog.Proofs.Codec.Rereading
import SealedCatalog.Proofs.Import.Texts

/-! Catalogs that are opened, changed and sealed again. An envelope that is given out is opened by
the password in force and holds the data that were sealed, as they are read again. -/

namespace SealedCatalog

open Session (KeyChain)

/-! Data that stay rereadable -/

theorem Record.indicesFit_of_covers {pool : TagPool} {record : Record}
    (covers : pool.Covers record.entries) (few : ∀ entry, pool.count entry ≤ Nat.pow 2 64) :
    record.IndicesFit := by
  intro field member
  have inRange := (covers field member).inRange
  unfold EntryValue.IndicesFit
  split
  next indices written =>
    rw [written] at inRange
    exact fun index listed => Nat.lt_of_lt_of_le (inRange index listed) (few field.1)
  · trivial

namespace CatalogData

variable {data : CatalogData}

/-- The data that are read once the data were sealed: one write more is counted, and the settings
are those that their text is read as. -/
def rewritten (data : CatalogData) : CatalogData :=
  data.counted.reread

theorem IsRereadable.counted (rereadable : data.IsRereadable) : data.counted.IsRereadable where
  texts := rereadable.texts
  canonical := rereadable.canonical
  indices := rereadable.indices
  settings := rereadable.settings

theorem IsRereadable.rewritten (rereadable : data.IsRereadable) : data.rewritten.IsRereadable :=
  rereadable.counted.reread

theorem IsRereadable.withRecord (rereadable : data.IsRereadable) {id : String}
    (named : Marker.IsPlain id) {record : Record} {pool : TagPool}
    (plain : TextsHold Marker.IsPlain pool record.entries) (bare : record.image = none)
    (fit : record.IndicesFit) : ((data.withTags pool).withRecord id record).IsRereadable where
  texts := by
    have ⟨settings, configuration, images, _, records⟩ :=
      forall_mem_texts_iff.mp rereadable.texts
    have tags : ∀ found ∈ some pool, ∀ text ∈ found.texts, Marker.IsPlain text := by
      intro found same
      cases same
      exact plain.pool
    refine forall_mem_texts_iff.mpr ⟨settings, configuration, images, tags, fun field stored => ?_⟩
    rcases Dict.mem_insertField stored with rfl | kept
    · refine ⟨named, fun text member => ?_⟩
      rw [Record.texts, bare] at member
      rcases List.mem_flatMap.mp member with ⟨entry, inside, entryText⟩
      rcases List.mem_cons.mp entryText with rfl | valueText
      · exact plain.names entry inside
      · exact plain.values entry inside text valueText
    · exact records field kept
  canonical := rereadable.canonical
  indices := by
    intro field stored
    rcases Dict.mem_insertField stored with rfl | kept
    · exact fit
    · exact rereadable.indices field kept
  settings := rereadable.settings

theorem IsRereadable.tagPool (rereadable : data.IsRereadable) :
    ∀ text ∈ data.tagPool.texts, Marker.IsPlain text := by
  have ⟨_, _, _, tags, _⟩ := forall_mem_texts_iff.mp rereadable.texts
  unfold CatalogData.tagPool
  cases written : data.tags with
  | none => exact List.forall_mem_nil _
  | some pool => exact tags pool written

theorem IsRereadable.entryNames (rereadable : data.IsRereadable) :
    ∀ entry ∈ data.configuration.entries, Marker.IsPlain entry.name := by
  have ⟨_, configuration, _⟩ := forall_mem_texts_iff.mp rereadable.texts
  exact fun entry member => configuration entry member entry.name List.mem_cons_self

/-- An imported record brings in no marker that neither its id nor its text has. -/
theorem IsRereadable.importRecord (rereadable : data.IsRereadable) {id text : String}
    (named : Marker.IsPlain id)
    (plain : ∀ document, Json.parse? text = some document →
      ∀ text ∈ document.texts, Marker.IsPlain text)
    {imageSupplied : Bool} {record : Record} {pool : TagPool}
    (imported : SealedCatalog.importRecord data.configuration text data.tagPool imageSupplied =
      .ok (record, pool))
    (few : ∀ entry, pool.count entry ≤ Nat.pow 2 64) :
    ((data.withTags pool).withRecord id record).IsRereadable := by
  have hold := textsHold_of_importRecord imported rereadable.tagPool rereadable.entryNames plain
  have covers : pool.Covers record.entries := by
    rcases exists_mirrors_of_importRecord imported with ⟨_, draft, _, mirrors, _, finalized⟩
    have covered := Draft.covers_finalize (mirrors.inRange data.tagPool)
    rwa [finalized] at covered
  exact rereadable.withRecord named hold (image_of_importRecord imported)
    (Record.indicesFit_of_covers covers few)

end CatalogData

/-! Envelopes that are given out -/

theorem Session.KeyChain.store {hash : KdfWorker} {databaseKey : CipherKey} {catalog : Catalog}
    {password : String} (chain : KeyChain hash databaseKey ⟨catalog, password⟩) (id : String)
    (record : Record) (pool : TagPool) :
    KeyChain hash databaseKey ⟨catalog.store id record pool, password⟩ where
  database := chain.database
  databaseUsage := chain.databaseUsage
  userUsage := chain.userUsage
  wrapped := chain.wrapped
  derived := chain.derived

namespace Catalog

variable {hash worker : KdfWorker} {envelope : Envelope} {password : String} {catalog : Catalog}

theorem unwrap_of_follows (follows : worker.Follows hash) {imagesOffered : Bool}
    (opened : unwrap envelope (.password password) imagesOffered worker = .ok catalog) :
    unwrap envelope (.password password) imagesOffered hash = .ok catalog := by
  rcases Outcome.bind_eq_ok_iff.mp opened with ⟨userKey, derived, unlocked⟩
  rcases deriveKey_eq_ok_iff.mp derived with ⟨answered, both⟩
  exact Outcome.bind_eq_ok_iff.mpr
    ⟨userKey, deriveKey_eq_ok_iff.mpr ⟨follows _ _ answered, both⟩, unlocked⟩

theorem keyChain_of_unwrap {imagesOffered : Bool}
    (opened : unwrap envelope (.password password) imagesOffered hash = .ok catalog) :
    KeyChain hash catalog.databaseKey ⟨catalog, password⟩ := by
  rcases Outcome.bind_eq_ok_iff.mp opened with ⟨userKey, derived, unlocked⟩
  have unlocks := unlock_eq_ok_iff.mp unlocked
  rcases deriveKey_eq_ok_iff.mp derived with ⟨answered, both⟩
  rw [← unlocks.keyKept, ← unlocks.protectionKept] at answered
  have unwrapped := unlocks.unwrapped
  rw [← unlocks.keyKept, ← unlocks.protectionKept] at unwrapped
  exact {
    database := rfl
    databaseUsage := unlocks.databaseUsage
    userUsage := unlocks.keyKept ▸ both
    wrapped := unwrapped
    derived := answered }

/-- The password opens the envelope, which holds the data. -/
def Reveals (hash : KdfWorker) (envelope : Envelope) (password : String) (data : CatalogData) :
    Prop :=
  ∃ catalog, unwrap envelope (.password password) false hash = .ok catalog ∧ catalog.data = data

theorem reveals_of_reseal {databaseKey : CipherKey}
    (chain : KeyChain hash databaseKey ⟨catalog, password⟩)
    (rereadable : catalog.data.IsRereadable) {overflow : Overflow} {nonce : Nonce}
    (done : (catalog.reseal overflow nonce).2 = .ok envelope) :
    Reveals hash envelope password catalog.data.rewritten := by
  have both : catalog.databaseKey.usage = .both := chain.database ▸ chain.databaseUsage
  cases grown : overflow.next? catalog.data.writeCounter with
  | none =>
      rw [reseal_of_full grown] at done
      cases done
  | some count =>
      rcases exists_reseal_eq both grown nonce with ⟨_, given, holds⟩
      rw [given] at done
      cases done
      exact ⟨_, (chain.resealed nonce).unwrap holds rereadable.counted.ofText_toText_eq
        List.mem_cons_self false, rfl⟩

theorem reveals_of_changePassword {databaseKey : CipherKey}
    (chain : KeyChain hash databaseKey ⟨catalog, password⟩)
    (rereadable : catalog.data.IsRereadable) (follows : worker.Follows hash) {overflow : Overflow}
    {newPassword : String} {cost : KdfCost} {fresh : Fresh}
    (done : (catalog.changePassword overflow newPassword cost fresh worker).2 = .ok envelope) :
    Reveals hash envelope newPassword catalog.data.rewritten := by
  have both : catalog.databaseKey.usage = .both := chain.database ▸ chain.databaseUsage
  unfold changePassword at done
  split at done
  next reason refused => cases done
  next userKey protection wrapped =>
    rcases wrapKey_eq_ok_iff.mp wrapped with ⟨derived, rfl⟩
    have chained := keyChain_rewrapped follows both derived
    show Reveals hash envelope newPassword (catalog.rewrapped userKey cost fresh).data.rewritten
    exact reveals_of_reseal chained rereadable done

theorem reveals_of_sealData {data : CatalogData} (rereadable : data.IsRereadable)
    (follows : worker.Follows hash) {random : Bytes} {fresh : Fresh}
    (drawn : Fresh.ofBytes? random = some fresh) {overflow : Overflow} {cost : KdfCost}
    {databaseKey : CipherKey}
    (done : sealData data overflow password cost fresh worker = .ok (envelope, databaseKey)) :
    Reveals hash envelope password data.rewritten := by
  rcases Outcome.bind_eq_ok_iff.mp done with ⟨created, creation, sealed⟩
  have chain := Session.keyChain_create follows drawn (Outcome.mapError_eq_ok_iff.mp creation)
  rcases Outcome.bind_eq_ok_iff.mp (Outcome.mapError_eq_ok_iff.mp creation) with ⟨_, _, same⟩
  cases same
  rcases Outcome.bind_eq_ok_iff.mp sealed with ⟨_, given, same⟩
  cases same
  exact reveals_of_reseal chain rereadable given

end Catalog

end SealedCatalog
