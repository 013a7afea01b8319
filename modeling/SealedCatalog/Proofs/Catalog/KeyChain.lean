import SealedCatalog.Proofs.Catalog.Change
import SealedCatalog.Proofs.Cipher
import SealedCatalog.Proofs.Codec.Envelope
import SealedCatalog.Proofs.Codec.RoundTrip
import SealedCatalog.Proofs.Kdf
import SealedCatalog.Proofs.Outcome

/-! Runs of an unlocked catalog. The keys, the protection and the password in force fit together
from the creation of the catalog on, so that each envelope that is given out can be opened by the
password, or the key of the user, that was in force at that moment. This holds however the program
counts its writes, and up to the moment at which it stops because it cannot. -/

namespace SealedCatalog

/-- Keys that the worker derives are those of the function. The worker may fail where the function
does not. -/
def KdfWorker.Follows (worker hash : KdfWorker) : Prop :=
  ∀ request key, worker request = .ok key → hash request = .ok key

theorem KdfWorker.follows_self (worker : KdfWorker) : worker.Follows worker :=
  fun _ _ derived => derived

/-- An unlocked catalog and the password that its key of the user was derived from. -/
structure Session where
  catalog : Catalog
  password : String

/-- The data with one write more. -/
def CatalogData.counted (data : CatalogData) : CatalogData :=
  { data with writeCounter := data.writeCounter + 1 }

namespace Session

inductive Step where
  | change (change : Catalog.Change)
  | reseal (nonce : Nonce)
  | changePassword (password : String) (cost : KdfCost) (fresh : Fresh) (worker : KdfWorker)

/-- The worker of the step, if it has one, derives the keys of the function. -/
def Step.Follows (hash : KdfWorker) : Step → Prop
  | change _ => True
  | reseal _ => True
  | changePassword _ _ _ worker => worker.Follows hash

/-- How a step ends: well, perhaps with an envelope that is given out, or not. -/
abbrev Ending := Except SealFault (Option Envelope)

def Ending.envelope? : Ending → Option Envelope
  | .ok given => given
  | .error _ => none

/-- The password that the key of the user is derived from once its change was tried. -/
def passwordAfter (session : Session) (password : String) (cost : KdfCost) (fresh : Fresh)
    (worker : KdfWorker) : String :=
  match Catalog.wrapKey session.catalog.databaseKey password cost fresh worker with
  | .ok _ => password
  | .error _ => session.password

def step (overflow : Overflow) (session : Session) : Step → Session × Ending
  | .change change => ({ session with catalog := session.catalog.apply change }, .ok none)
  | .reseal nonce =>
      let (catalog, outcome) := session.catalog.reseal overflow nonce
      ({ session with catalog }, outcome.map some)
  | .changePassword password cost fresh worker =>
      let (catalog, outcome) := session.catalog.changePassword overflow password cost fresh worker
      (⟨catalog, session.passwordAfter password cost fresh worker⟩, outcome.map some)

/-- The session after some steps, and the envelopes that they give out, each with the session of
its moment. A program that stopped takes no more steps. -/
def run (overflow : Overflow) (session : Session) :
    List Step → Session × List (Session × Envelope)
  | [] => (session, [])
  | next :: rest =>
      match session.step overflow next with
      | (moved, .ok (some envelope)) =>
          let later := moved.run overflow rest
          (later.1, (moved, envelope) :: later.2)
      | (moved, .ok none) => moved.run overflow rest
      | (moved, .error (.refused _)) => moved.run overflow rest
      | (moved, .error .stopped) => (moved, [])

/-- The password in force derives the key of the user, which unwraps the database key. -/
structure KeyChain (hash : KdfWorker) (databaseKey : CipherKey) (session : Session) : Prop where
  database : session.catalog.databaseKey = databaseKey
  databaseUsage : databaseKey.usage = .both
  userUsage : session.catalog.userKey.usage = .both
  wrapped : session.catalog.userKey.decrypt session.catalog.protection.keyNonce
    session.catalog.protection.encryptedKey = .ok databaseKey.bytes
  derived : hash (session.catalog.protection.derivation.request
    (Bytes.ofText session.password)) = .ok session.catalog.userKey.bytes

/-- The envelope has the protection of the catalog and holds its data. -/
structure Holds (envelope : Envelope) (catalog : Catalog) : Prop where
  protection : envelope.protection = catalog.protection
  internals : catalog.databaseKey.decrypt catalog.protection.dataNonce envelope.internals =
    .ok (Bytes.ofText (Codable.toText catalog.data))

end Session

namespace Overflow

theorem eq_add_one_of_next? (overflow : Overflow) {count next : UInt64}
    (grown : overflow.next? count = some next) : next = count + 1 := by
  cases overflow with
  | stops => exact (Option.some.inj (Option.ite_none_left_eq_some.mp grown).2).symm
  | wraps => exact (Option.some.inj grown).symm

end Overflow

theorem Fresh.usage_databaseKey {random : Bytes} {fresh : Fresh}
    (drawn : ofBytes? random = some fresh) : fresh.databaseKey.usage = .both := by
  rw [ofBytes?] at drawn
  rcases Option.bind_eq_some_iff.mp drawn with ⟨key, imported, drawn⟩
  rcases Option.bind_eq_some_iff.mp drawn with ⟨keyNonce, _, drawn⟩
  rcases Option.bind_eq_some_iff.mp drawn with ⟨dataNonce, _, same⟩
  cases same
  cases accepted : CipherKey.ofBytes (random.take keyLength) .both with
  | error reason =>
      rw [accepted] at imported
      cases imported
  | ok given =>
      rw [accepted] at imported
      cases imported
      exact (CipherKey.ofBytes_eq_ok_iff.mp accepted).2

namespace Catalog

open Session (KeyChain Holds)

/-! Keys -/

theorem importKey_eq_ok_iff {raw : Bytes} {key : CipherKey} :
    importKey raw = .ok key ↔ raw = key.bytes ∧ key.usage = .both := by
  rw [importKey, Outcome.mapError_eq_ok_iff, CipherKey.ofBytes_eq_ok_iff]

theorem deriveKey_eq_ok_iff {worker : KdfWorker} {parameters : KdfParameters} {password : String}
    {key : CipherKey} :
    deriveKey worker parameters password = .ok key ↔
      worker (parameters.request (Bytes.ofText password)) = .ok key.bytes ∧
        key.usage = .both := by
  rw [deriveKey, Outcome.bind_eq_ok_iff]
  simp only [Outcome.mapError_eq_ok_iff, importKey_eq_ok_iff]
  constructor
  · rintro ⟨raw, derived, rfl, both⟩
    exact ⟨derived, both⟩
  · rintro ⟨derived, both⟩
    exact ⟨key.bytes, derived, rfl, both⟩

/-- The protection of a database key under a key of the user. -/
def wrapping (databaseKey userKey : CipherKey) (cost : KdfCost) (fresh : Fresh) : Protection where
  encryptedKey := Cipher.encrypt userKey.bytes fresh.keyNonce databaseKey.bytes
  keyNonce := fresh.keyNonce
  dataNonce := Nonce.zero
  derivation := KdfParameters.ofCost cost fresh.salt

theorem wrapKey_eq_ok_iff {databaseKey userKey : CipherKey} {password : String} {cost : KdfCost}
    {fresh : Fresh} {worker : KdfWorker} {protection : Protection} :
    wrapKey databaseKey password cost fresh worker = .ok (userKey, protection) ↔
      deriveKey worker (KdfParameters.ofCost cost fresh.salt) password = .ok userKey ∧
        protection = wrapping databaseKey userKey cost fresh := by
  rw [wrapKey]
  simp only [Outcome.bind_eq_ok_iff, Outcome.mapError_eq_ok_iff]
  constructor
  · rintro ⟨key, derived, sealed, encrypted, same⟩
    cases same
    rw [CipherKey.encrypt_of_both (deriveKey_eq_ok_iff.mp derived).2] at encrypted
    cases encrypted
    exact ⟨derived, rfl⟩
  · rintro ⟨derived, rfl⟩
    have both := (deriveKey_eq_ok_iff.mp derived).2
    exact ⟨userKey, derived, _, CipherKey.encrypt_of_both both _ _, rfl⟩

/-- The catalog after its data were sealed with a nonce. -/
def resealed (catalog : Catalog) (nonce : Nonce) : Catalog :=
  { catalog with
    data := catalog.data.counted
    protection := { catalog.protection with dataNonce := nonce } }

/-- A catalog whose writes cannot be counted any more stays as it is. -/
theorem reseal_of_full {catalog : Catalog} {overflow : Overflow}
    (full : overflow.next? catalog.data.writeCounter = none) (nonce : Nonce) :
    catalog.reseal overflow nonce = (catalog, .error .stopped) := by
  rw [reseal, countWrite?, full]
  rfl

/-- Any other catalog is sealed if its database key may be used both ways. -/
theorem exists_reseal_eq {catalog : Catalog} (both : catalog.databaseKey.usage = .both)
    {overflow : Overflow} {count : UInt64}
    (room : overflow.next? catalog.data.writeCounter = some count) (nonce : Nonce) :
    ∃ envelope, catalog.reseal overflow nonce = (catalog.resealed nonce, .ok envelope) ∧
      Holds envelope (catalog.resealed nonce) := by
  have counted : countWrite? overflow catalog.data = some catalog.data.counted := by
    rw [countWrite?, room, overflow.eq_add_one_of_next? room]
    rfl
  let plain := Bytes.ofText (Codable.toText catalog.data.counted)
  refine ⟨⟨(catalog.resealed nonce).protection,
    Cipher.encrypt catalog.databaseKey.bytes nonce plain⟩, ?_, ⟨rfl, ?_⟩⟩
  · simp only [reseal, counted, CipherKey.encrypt_of_both both]
    rfl
  · exact CipherKey.decrypt_of_both both nonce plain

/-- The catalog after its database key was wrapped under another key of the user. -/
def rewrapped (catalog : Catalog) (userKey : CipherKey) (cost : KdfCost) (fresh : Fresh) :
    Catalog :=
  { catalog with userKey, protection := wrapping catalog.databaseKey userKey cost fresh }

/-- A catalog is created under any password of which a key is derived. -/
theorem create_of_derived {worker : KdfWorker} {cost : KdfCost} {fresh : Fresh} {password : String}
    {userKey : CipherKey}
    (derived : deriveKey worker (KdfParameters.ofCost cost fresh.salt) password = .ok userKey)
    (data : CatalogData) (imagesOffered : Bool) :
    create data password cost imagesOffered fresh worker = .ok {
      data
      databaseKey := fresh.databaseKey
      userKey
      protection := wrapping fresh.databaseKey userKey cost fresh
      imageSupport := data.configuration.hasImages && imagesOffered } := by
  rw [create, wrapKey_eq_ok_iff.mpr ⟨derived, rfl⟩]
  rfl

/-- Data are sealed under a new database key, if a key is derived of the password. -/
theorem exists_sealData_eq_ok {data : CatalogData} {overflow : Overflow} {password : String}
    {cost : KdfCost} {fresh : Fresh} {worker : KdfWorker} {userKey : CipherKey} {count : UInt64}
    (derived : deriveKey worker (KdfParameters.ofCost cost fresh.salt) password = .ok userKey)
    (both : fresh.databaseKey.usage = .both)
    (room : overflow.next? data.writeCounter = some count) :
    ∃ envelope, sealData data overflow password cost fresh worker =
      .ok (envelope, fresh.databaseKey) := by
  have created := create_of_derived derived data false
  rcases @exists_reseal_eq ⟨data, _, userKey, _, _⟩ both _ _ room fresh.dataNonce with
    ⟨envelope, resealed, _⟩
  refine ⟨envelope, Outcome.bind_eq_ok_iff.mpr ⟨_, Outcome.mapError_eq_ok_iff.mpr created, ?_⟩⟩
  rw [resealed]
  rfl

/-- A password of which a key is derived is in force before the data are sealed. -/
theorem changePassword_of_derived {worker : KdfWorker} {cost : KdfCost} {fresh : Fresh}
    {password : String} {userKey : CipherKey}
    (derived : deriveKey worker (KdfParameters.ofCost cost fresh.salt) password = .ok userKey)
    (catalog : Catalog) (overflow : Overflow) :
    catalog.changePassword overflow password cost fresh worker =
      (catalog.rewrapped userKey cost fresh).reseal overflow fresh.dataNonce := by
  rw [changePassword, wrapKey_eq_ok_iff.mpr ⟨derived, rfl⟩]
  rfl

theorem keyChain_rewrapped {hash worker : KdfWorker} (follows : worker.Follows hash)
    {catalog : Catalog} (both : catalog.databaseKey.usage = .both) {password : String}
    {cost : KdfCost} {fresh : Fresh} {userKey : CipherKey}
    (derived : deriveKey worker (KdfParameters.ofCost cost fresh.salt) password = .ok userKey) :
    KeyChain hash catalog.databaseKey ⟨catalog.rewrapped userKey cost fresh, password⟩ := by
  rcases deriveKey_eq_ok_iff.mp derived with ⟨answered, userBoth⟩
  exact {
    database := rfl
    databaseUsage := both
    userUsage := userBoth
    wrapped := CipherKey.decrypt_of_both userBoth _ _
    derived := follows _ _ answered }

end Catalog

namespace Session

open Catalog (resealed)

variable {hash : KdfWorker} {databaseKey : CipherKey} {overflow : Overflow} {session : Session}

theorem KeyChain.resealed {catalog : Catalog} {password : String}
    (chain : KeyChain hash databaseKey ⟨catalog, password⟩) (nonce : Nonce) :
    KeyChain hash databaseKey ⟨catalog.resealed nonce, password⟩ where
  database := chain.database
  databaseUsage := chain.databaseUsage
  userUsage := chain.userUsage
  wrapped := chain.wrapped
  derived := chain.derived

/-- All that a step can come to. Nothing is refused but a password of which no key is derived. -/
inductive StepsTo (overflow : Overflow) (session : Session) : Step → Session → Ending → Prop
  | changed (change : Catalog.Change) :
      StepsTo overflow session (.change change)
        { session with catalog := session.catalog.apply change } (.ok none)
  | resealed {nonce : Nonce} {count : UInt64} {envelope : Envelope}
      (room : overflow.next? session.catalog.data.writeCounter = some count)
      (holds : Holds envelope (session.catalog.resealed nonce)) :
      StepsTo overflow session (.reseal nonce)
        { session with catalog := session.catalog.resealed nonce } (.ok (some envelope))
  | stopped {nonce : Nonce} (full : overflow.next? session.catalog.data.writeCounter = none) :
      StepsTo overflow session (.reseal nonce) session (.error .stopped)
  | refused {password : String} {cost : KdfCost} {fresh : Fresh} {worker : KdfWorker}
      {reason : CatalogError}
      (failed : Catalog.deriveKey worker (KdfParameters.ofCost cost fresh.salt) password =
        .error reason) :
      StepsTo overflow session (.changePassword password cost fresh worker) session
        (.error (.refused reason))
  | rekeyed {password : String} {cost : KdfCost} {fresh : Fresh} {worker : KdfWorker}
      {userKey : CipherKey} {count : UInt64} {envelope : Envelope}
      (derived : Catalog.deriveKey worker (KdfParameters.ofCost cost fresh.salt) password =
        .ok userKey)
      (room : overflow.next? session.catalog.data.writeCounter = some count)
      (holds : Holds envelope
        ((session.catalog.rewrapped userKey cost fresh).resealed fresh.dataNonce)) :
      StepsTo overflow session (.changePassword password cost fresh worker)
        ⟨(session.catalog.rewrapped userKey cost fresh).resealed fresh.dataNonce, password⟩
        (.ok (some envelope))
  | rekeyedStopped {password : String} {cost : KdfCost} {fresh : Fresh} {worker : KdfWorker}
      {userKey : CipherKey}
      (derived : Catalog.deriveKey worker (KdfParameters.ofCost cost fresh.salt) password =
        .ok userKey)
      (full : overflow.next? session.catalog.data.writeCounter = none) :
      StepsTo overflow session (.changePassword password cost fresh worker)
        ⟨session.catalog.rewrapped userKey cost fresh, password⟩ (.error .stopped)

theorem stepsTo_step_reseal (both : session.catalog.databaseKey.usage = .both) (nonce : Nonce) :
    StepsTo overflow session (.reseal nonce) (session.step overflow (.reseal nonce)).1
      (session.step overflow (.reseal nonce)).2 := by
  rw [Session.step]
  cases counted : overflow.next? session.catalog.data.writeCounter with
  | none =>
      rw [Catalog.reseal_of_full counted]
      exact .stopped counted
  | some count =>
      rcases Catalog.exists_reseal_eq both counted nonce with ⟨envelope, sealed, holds⟩
      rw [sealed]
      exact .resealed counted holds

/-- A session is not touched by a change of the password whose derivation fails. -/
theorem step_changePassword_of_error {password : String} {cost : KdfCost} {fresh : Fresh}
    {worker : KdfWorker} {reason : CatalogError}
    (failed : Catalog.deriveKey worker (KdfParameters.ofCost cost fresh.salt) password =
      .error reason) :
    session.step overflow (.changePassword password cost fresh worker) =
      (session, .error (.refused reason)) := by
  have refused : Catalog.wrapKey session.catalog.databaseKey password cost fresh worker =
      .error reason := by
    simp only [Catalog.wrapKey, failed]
    rfl
  rw [Session.step, Catalog.changePassword, passwordAfter, refused]
  rfl

/-- The derivation is all that a change of the password is refused for. -/
theorem stepsTo_step_changePassword (both : session.catalog.databaseKey.usage = .both)
    (password : String) (cost : KdfCost) (fresh : Fresh) (worker : KdfWorker) :
    let next := Step.changePassword password cost fresh worker
    StepsTo overflow session next (session.step overflow next).1
      (session.step overflow next).2 := by
  intro next
  cases derived : Catalog.deriveKey worker (KdfParameters.ofCost cost fresh.salt) password with
  | error reason =>
      rw [step_changePassword_of_error derived]
      exact .refused derived
  | ok userKey =>
      let rewrapped := session.catalog.rewrapped userKey cost fresh
      have moved : session.step overflow next =
          (⟨(rewrapped.reseal overflow fresh.dataNonce).1, password⟩,
            (rewrapped.reseal overflow fresh.dataNonce).2.map some) := by
        rw [Session.step, Catalog.changePassword_of_derived derived, passwordAfter,
          Catalog.wrapKey_eq_ok_iff.mpr ⟨derived, rfl⟩]
      have usable : rewrapped.databaseKey.usage = .both := both
      rw [moved]
      cases counted : overflow.next? rewrapped.data.writeCounter with
      | none =>
          rw [Catalog.reseal_of_full counted]
          exact .rekeyedStopped derived counted
      | some count =>
          rcases Catalog.exists_reseal_eq usable counted fresh.dataNonce with
            ⟨envelope, sealed, holds⟩
          rw [sealed]
          exact .rekeyed derived counted holds

theorem stepsTo_step (both : session.catalog.databaseKey.usage = .both) (next : Step) :
    StepsTo overflow session next (session.step overflow next).1
      (session.step overflow next).2 := by
  cases next with
  | change change => exact .changed change
  | reseal nonce => exact stepsTo_step_reseal both nonce
  | changePassword password cost fresh worker =>
      exact stepsTo_step_changePassword both password cost fresh worker

theorem StepsTo.isSome_of_reseal {nonce : Nonce} {moved : Session} {ending : Ending}
    (steps : StepsTo overflow session (.reseal nonce) moved ending) :
    ending.envelope?.isSome = (overflow.next? session.catalog.data.writeCounter).isSome := by
  cases steps with
  | resealed room _ =>
      rw [room]
      rfl
  | stopped full =>
      rw [full]
      rfl

theorem StepsTo.isSome_of_changePassword {password : String} {cost : KdfCost} {fresh : Fresh}
    {worker : KdfWorker} {moved : Session} {ending : Ending} {userKey : CipherKey}
    (steps : StepsTo overflow session (.changePassword password cost fresh worker) moved ending)
    (derived : Catalog.deriveKey worker (KdfParameters.ofCost cost fresh.salt) password =
      .ok userKey) :
    ending.envelope?.isSome = (overflow.next? session.catalog.data.writeCounter).isSome := by
  cases steps with
  | refused failed => cases derived.symm.trans failed
  | rekeyed _ room _ =>
      rw [room]
      rfl
  | rekeyedStopped _ full =>
      rw [full]
      rfl

/-- No step breaks the chain, and what a step gives out holds the catalog of that moment. -/
theorem KeyChain.stepsTo (chain : KeyChain hash databaseKey session) {next : Step}
    (follows : next.Follows hash) {moved : Session} {ending : Ending}
    (steps : StepsTo overflow session next moved ending) :
    KeyChain hash databaseKey moved ∧
      ∀ envelope ∈ ending.envelope?, Holds envelope moved.catalog := by
  rcases chain.database with rfl
  have both := chain.databaseUsage
  cases steps with
  | changed change =>
      rcases session.catalog.exists_apply_eq change with ⟨tags, records, changed⟩
      rw [changed]
      exact ⟨⟨chain.database, chain.databaseUsage, chain.userUsage, chain.wrapped,
        chain.derived⟩, nofun⟩
  | @resealed nonce _ _ _ holds =>
      refine ⟨chain.resealed nonce, ?_⟩
      intro other same
      cases same
      exact holds
  | stopped full => exact ⟨chain, nofun⟩
  | refused failed => exact ⟨chain, nofun⟩
  | rekeyed derived _ holds =>
      have rekeyed := Catalog.keyChain_rewrapped follows both derived
      refine ⟨rekeyed.resealed _, ?_⟩
      intro other same
      cases same
      exact holds
  | rekeyedStopped derived _ => exact ⟨Catalog.keyChain_rewrapped follows both derived, nofun⟩

theorem KeyChain.run (chain : KeyChain hash databaseKey session) {steps : List Step}
    (follow : ∀ next ∈ steps, next.Follows hash) :
    KeyChain hash databaseKey (session.run overflow steps).1 ∧
      ∀ moment ∈ (session.run overflow steps).2,
        KeyChain hash databaseKey moment.1 ∧ Holds moment.2 moment.1.catalog := by
  induction steps generalizing session with
  | nil => exact ⟨chain, by simp [Session.run]⟩
  | cons next rest induction =>
      have ⟨first, others⟩ := List.forall_mem_cons.mp follow
      have both : session.catalog.databaseKey.usage = .both :=
        chain.database.symm ▸ chain.databaseUsage
      have steps : StepsTo overflow session next _ _ := stepsTo_step both next
      rcases chain.stepsTo first steps with ⟨kept, holds⟩
      rw [Session.run]
      split
      next moved envelope came =>
        rw [came] at kept holds
        rcases induction kept others with ⟨last, later⟩
        exact ⟨last, List.forall_mem_cons.mpr ⟨⟨kept, holds envelope rfl⟩, later⟩⟩
      next moved came =>
        rw [came] at kept
        exact induction kept others
      next moved reason came =>
        rw [came] at kept
        exact induction kept others
      next moved came =>
        rw [came] at kept
        exact ⟨kept, List.forall_mem_nil _⟩

/-- The catalog as it is opened with images offered or not. -/
def offering (catalog : Catalog) (imagesOffered : Bool) : Catalog :=
  { catalog with imageSupport := catalog.data.configuration.hasImages && imagesOffered }

theorem KeyChain.userKeyOf (chain : KeyChain hash databaseKey session) {credential : Credential}
    (valid : credential ∈ [.password session.password, .rawKey session.catalog.userKey.bytes]) :
    Catalog.userKeyOf hash session.catalog.protection.derivation credential =
      .ok session.catalog.userKey := by
  rcases List.mem_pair.mp valid with rfl | rfl
  · exact Catalog.deriveKey_eq_ok_iff.mpr ⟨chain.derived, chain.userUsage⟩
  · exact Catalog.importKey_eq_ok_iff.mpr ⟨rfl, chain.userUsage⟩

/-- What was given out is opened by the password and by the key of its moment, with the data that
the written ones are read as. -/
theorem KeyChain.unwrap (chain : KeyChain hash databaseKey session) {envelope : Envelope}
    (holds : Holds envelope session.catalog) {data : CatalogData}
    (readable : Codable.ofText (Codable.toText session.catalog.data) = .ok data)
    {credential : Credential}
    (valid : credential ∈ [.password session.password, .rawKey session.catalog.userKey.bytes])
    (imagesOffered : Bool) :
    Catalog.unwrap envelope credential imagesOffered hash =
      .ok (offering { session.catalog with data } imagesOffered) := by
  have imported : Catalog.importKey databaseKey.bytes = .ok databaseKey :=
    Catalog.importKey_eq_ok_iff.mpr ⟨rfl, chain.databaseUsage⟩
  have opened := holds.internals
  rw [chain.database] at opened
  unfold Catalog.unwrap Catalog.unlock
  rw [holds.protection, chain.userKeyOf valid]
  simp only [bind, Except.bind, chain.wrapped, Outcome.mapError_ok, imported, opened,
    Codable.ofBytes_ofText, readable]
  rw [offering, ← chain.database]
  rfl

/-- The envelope, once written and read, is opened by the password and by the key of the session,
and holds its catalog. -/
def IsOpened (hash : KdfWorker) (session : Session) (envelope : Envelope) : Prop :=
  ∀ credential ∈ [.password session.password, .rawKey session.catalog.userKey.bytes],
    ∀ imagesOffered,
      (Envelope.parse (Codable.toText envelope) >>= fun read =>
        Catalog.unwrap read credential imagesOffered hash) =
          .ok (offering session.catalog imagesOffered)

theorem KeyChain.isOpened (chain : KeyChain hash databaseKey session) {envelope : Envelope}
    (holds : Holds envelope session.catalog) (plain : session.catalog.data.IsPlain) :
    session.IsOpened hash envelope := by
  have readable : Codable.ofText (Codable.toText session.catalog.data) = .ok session.catalog.data :=
    (CatalogData.ofText_toText_iff_isRevivable plain.indices plain.integral).mpr plain.isRevivable
  intro credential valid imagesOffered
  rw [Envelope.parse_toText]
  exact chain.unwrap holds readable valid imagesOffered

theorem keyChain_create {worker : KdfWorker} (follows : worker.Follows hash) {random : Bytes}
    {fresh : Fresh} (drawn : Fresh.ofBytes? random = some fresh) {data : CatalogData}
    {password : String} {cost : KdfCost} {imagesOffered : Bool} {catalog : Catalog}
    (created : Catalog.create data password cost imagesOffered fresh worker = .ok catalog) :
    KeyChain hash catalog.databaseKey ⟨catalog, password⟩ := by
  have both : fresh.databaseKey.usage = .both := Fresh.usage_databaseKey drawn
  rw [Catalog.create] at created
  rcases Outcome.bind_eq_ok_iff.mp created with ⟨⟨userKey, protection⟩, wrapped, same⟩
  rcases Catalog.wrapKey_eq_ok_iff.mp wrapped with ⟨derived, rfl⟩
  cases same
  let unwrapped : Catalog :=
    ⟨data, fresh.databaseKey, userKey, default, data.configuration.hasImages && imagesOffered⟩
  show KeyChain hash unwrapped.databaseKey ⟨unwrapped.rewrapped userKey cost fresh, password⟩
  exact Catalog.keyChain_rewrapped follows both derived

/-- Every envelope that is given out after a catalog was created, whatever was refused meanwhile, is
opened by the password and by the key of its moment and holds the data of that moment under the one
database key. As long as the writes can be counted, a catalog can be sealed at any time, and its
password can be changed unless the derivation fails, which touches nothing. -/
theorem isOpened_of_mem_run {hash worker : KdfWorker} (follows : worker.Follows hash)
    {random : Bytes} {fresh : Fresh} (drawn : Fresh.ofBytes? random = some fresh)
    {data : CatalogData} {password : String} {cost : KdfCost} {imagesOffered : Bool}
    {catalog : Catalog}
    (created : Catalog.create data password cost imagesOffered fresh worker = .ok catalog)
    (overflow : Overflow) {steps : List Step} (follow : ∀ next ∈ steps, next.Follows hash) :
    let given := run overflow ⟨catalog, password⟩ steps
    let counts := (overflow.next? given.1.catalog.data.writeCounter).isSome
    (∀ moment ∈ given.2, moment.1.catalog.databaseKey = catalog.databaseKey ∧
        (moment.1.catalog.data.IsPlain → moment.1.IsOpened hash moment.2)) ∧
      (∀ nonce, (given.1.step overflow (.reseal nonce)).2.envelope?.isSome = counts) ∧
      ∀ newPassword newCost newFresh newWorker,
        let derived := Catalog.deriveKey newWorker
          (KdfParameters.ofCost newCost newFresh.salt) newPassword
        let changed := given.1.step overflow
          (.changePassword newPassword newCost newFresh newWorker)
        (∀ userKey, derived = .ok userKey → changed.2.envelope?.isSome = counts) ∧
          ∀ reason, derived = .error reason → changed = (given.1, .error (.refused reason)) := by
  intro given counts
  have chain := keyChain_create follows drawn created
  rcases chain.run follow with ⟨last, moments⟩
  have both : given.1.catalog.databaseKey.usage = .both :=
    last.database.symm ▸ last.databaseUsage
  refine ⟨?_, ?_, ?_⟩
  · intro moment member
    have ⟨kept, holds⟩ := moments moment member
    exact ⟨kept.database, kept.isOpened holds⟩
  · intro nonce
    exact (stepsTo_step_reseal both nonce).isSome_of_reseal
  · intro newPassword newCost newFresh newWorker derived changed
    constructor
    · intro userKey found
      exact (stepsTo_step_changePassword both _ _ _ _).isSome_of_changePassword found
    · intro reason failed
      exact step_changePassword_of_error failed

/-! A catalog without records that is sealed after its password could not be changed -/

/-- The values that zeros give. -/
def zeros : Fresh where
  databaseKey := ⟨List.replicate keyLength 0, .both, length_zeroKey⟩
  salt := List.replicate saltLength 0
  keyNonce := Nonce.zero
  dataNonce := Nonce.zero

/-- A change of the password that is cancelled, and then a seal. -/
def cancelledChange : List Step :=
  [.changePassword "new" .least zeros fun _ => .error .cancelled, .reseal Nonce.zero]

/-- A key is derived of any password that is not too long. -/
theorem exists_deriveKey_eq_ok {password : String}
    (fits : (Bytes.ofText password).length ≤ KdfRequest.greatestLength) :
    ∃ userKey, Catalog.deriveKey KdfRequest.derive (KdfParameters.ofCost .least zeros.salt)
      password = .ok userKey := by
  let request := (KdfParameters.ofCost .least zeros.salt).request (Bytes.ofText password)
  have sound : request.defect? = none := by
    show (if KdfRequest.greatestLength < (Bytes.ofText password).length then _ else _) = none
    rw [if_neg (Nat.not_lt.mpr fits)]
    rfl
  have short : request.outputLength.toNat ≤ 64 := Nat.le_of_ble_eq_true rfl
  rcases request.exists_derive_eq_ok sound short with ⟨raw, derived, length⟩
  exact ⟨⟨raw, .both, length⟩, Catalog.deriveKey_eq_ok_iff.mpr ⟨derived, rfl⟩⟩

theorem exists_create_eq_ok (data : CatalogData) {password : String}
    (fits : (Bytes.ofText password).length ≤ KdfRequest.greatestLength) :
    ∃ catalog, Catalog.create data password .least false zeros KdfRequest.derive = .ok catalog ∧
      catalog.data = data ∧ catalog.databaseKey = zeros.databaseKey := by
  rcases exists_deriveKey_eq_ok fits with ⟨userKey, derived⟩
  exact ⟨_, Catalog.create_of_derived derived data false, rfl, rfl⟩

/-- The envelope is opened by the old password. -/
theorem isOpened_cancelledChange :
    ∃ catalog envelope,
      let data := CatalogData.new (.ofEntries [.string "title" .unset])
      let moment : Session := ⟨catalog.resealed Nonce.zero, "old"⟩
      (KdfWorker.Follows KdfRequest.derive KdfRequest.derive ∧
        Fresh.ofBytes? (List.replicate Fresh.length 0) = some zeros ∧
        Catalog.create data "old" .least false zeros KdfRequest.derive = .ok catalog ∧
        ∀ next ∈ cancelledChange, next.Follows KdfRequest.derive) ∧
      (run .stops ⟨catalog, "old"⟩ cancelledChange).2 = [(moment, envelope)] ∧
      moment.IsOpened KdfRequest.derive envelope := by
  let data := CatalogData.new (.ofEntries [.string "title" .unset])
  have short : (Bytes.ofText "old").length ≤ KdfRequest.greatestLength := by decide +kernel
  rcases exists_create_eq_ok data short with ⟨catalog, created, same, key⟩
  have follows := KdfWorker.follows_self KdfRequest.derive
  have drawn : Fresh.ofBytes? (List.replicate Fresh.length 0) = some zeros := rfl
  have follow : ∀ next ∈ cancelledChange, next.Follows KdfRequest.derive := by
    refine List.forall_mem_cons.mpr ⟨?_, List.forall_mem_singleton.mpr trivial⟩
    intro request key derived
    cases derived
  have both : catalog.databaseKey.usage = .both := by
    rw [key]
    rfl
  have room : Overflow.next? catalog.data.writeCounter .stops = some 1 := by
    rw [same]
    rfl
  rcases Catalog.exists_reseal_eq both room Nonce.zero with ⟨envelope, sealed, _⟩
  have given : (run .stops ⟨catalog, "old"⟩ cancelledChange).2 =
      [(⟨catalog.resealed Nonce.zero, "old"⟩, envelope)] := by
    have refused : Session.step .stops ⟨catalog, "old"⟩
        (.changePassword "new" .least zeros fun _ => .error .cancelled) =
          (⟨catalog, "old"⟩, .error (.refused (.derivation .cancelled))) :=
      step_changePassword_of_error rfl
    have resealed : Session.step .stops ⟨catalog, "old"⟩ (.reseal Nonce.zero) =
        (⟨catalog.resealed Nonce.zero, "old"⟩, .ok (some envelope)) := by
      rw [Session.step, sealed]
      rfl
    simp only [cancelledChange, run, refused, resealed]
  have plain : (catalog.resealed Nonce.zero).data.IsPlain := by
    have counted : (catalog.resealed Nonce.zero).data = data.counted := by
      rw [resealed, same]
    rw [counted]
    exact {
      texts := by decide
      integral := .object (List.forall_mem_nil _)
      canonical := .object .nil (List.forall_mem_nil _)
      indices := by decide
      shallow := by decide }
  have ⟨_, opened⟩ := (isOpened_of_mem_run follows drawn created .stops follow).1
    (⟨catalog.resealed Nonce.zero, "old"⟩, envelope) (given ▸ List.mem_singleton_self _)
  exact ⟨catalog, envelope, ⟨follows, drawn, created, follow⟩, given, opened plain⟩

end Session

end SealedCatalog
