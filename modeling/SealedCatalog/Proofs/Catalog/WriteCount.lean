import SealedCatalog.Proofs.Catalog.Unlocking

/-! The counter of writes. Every envelope that an unlocked catalog gives out carries a count that is
one higher than the one before, and a step that gives out none leaves the count alone, also one that
fails after the catalog was changed. The counter is a machine word. A program that checks its counts
stops where there is no room for one more; another starts again at zero, so that its counts ascend
exactly as long as there is room for them. -/

namespace SealedCatalog

/-! Words that ascend -/

namespace Session

variable {overflow : Overflow} {session : Session}

def writeCounter (session : Session) : UInt64 :=
  session.catalog.data.writeCounter

/-- A step that gives out an envelope counts one write, and the envelope holds the counted data. A
step that gives out none counts nothing. Either way the database key stays. -/
structure Counts (overflow : Overflow) (session moved : Session) (ending : Ending) : Prop where
  databaseKey : moved.catalog.databaseKey = session.catalog.databaseKey
  counted : ∀ envelope, ending = .ok (some envelope) →
    overflow.next? session.writeCounter = some moved.writeCounter ∧ Holds envelope moved.catalog
  uncounted : ending.envelope? = none → moved.writeCounter = session.writeCounter
  stopped : ending = .error .stopped → overflow.next? session.writeCounter = none

theorem StepsTo.counts {next : Step} {moved : Session} {ending : Ending}
    (steps : StepsTo overflow session next moved ending) :
    Counts overflow session moved ending := by
  have grown : ∀ count, overflow.next? session.catalog.data.writeCounter = some count →
      overflow.next? session.writeCounter = some session.catalog.data.counted.writeCounter := by
    intro count room
    rw [overflow.eq_add_one_of_next? room] at room
    exact room
  cases steps with
  | changed change =>
      rcases session.catalog.exists_apply_eq change with ⟨tags, records, changed⟩
      rw [changed]
      exact ⟨rfl, nofun, fun _ => rfl, nofun⟩
  | resealed room holds =>
      refine ⟨rfl, ?_, nofun, nofun⟩
      intro envelope same
      cases same
      exact ⟨grown _ room, holds⟩
  | stopped full => exact ⟨rfl, nofun, fun _ => rfl, fun _ => full⟩
  | refused failed => exact ⟨rfl, nofun, fun _ => rfl, nofun⟩
  | rekeyed derived room holds =>
      refine ⟨rfl, ?_, nofun, nofun⟩
      intro envelope same
      cases same
      exact ⟨grown _ room, holds⟩
  | rekeyedStopped derived full => exact ⟨rfl, nofun, fun _ => rfl, fun _ => full⟩

/-- A seal that is refused has counted its write. This befalls no catalog that was opened, the key
of which may encrypt. -/
theorem data_reseal_of_refused {catalog : Catalog} {nonce : Nonce} {reason : CatalogError}
    (refused : (catalog.reseal overflow nonce).2 = .error (.refused reason)) :
    (catalog.reseal overflow nonce).1.data = catalog.data.counted := by
  unfold Catalog.reseal Catalog.countWrite? at refused ⊢
  cases grown : overflow.next? catalog.data.writeCounter with
  | none =>
      rw [grown] at refused
      cases refused
  | some count =>
      rw [overflow.eq_add_one_of_next? grown]
      dsimp only [Option.map_some]
      split <;> rfl

/-! Seals one after another -/

end Session

end SealedCatalog
