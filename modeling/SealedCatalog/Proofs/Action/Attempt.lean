import SealedCatalog.Action.Perform
import SealedCatalog.Proofs.Bytes
import SealedCatalog.Proofs.FileTree
import SealedCatalog.Proofs.Outcome

/-! How attempts end. An attempt ends well exactly when each of its steps does, and an action that
does not end well changes no file. -/

namespace SealedCatalog

/-- The file at the path holds the text. -/
def FileTree.HasText (files : FileTree) (path text : String) : Prop :=
  ∃ content, files.content path = .ok content ∧ content.toText? = some text

namespace Attempt

variable {α β : Type}

def outcome (attempt : Attempt α) (files : FileTree) : Except ActionError α :=
  attempt.run.answer files.view

@[simp] theorem outcome_pure (value : α) (files : FileTree) :
    outcome (pure value) files = .ok value := rfl

@[simp] theorem outcome_throw (reason : ActionError) (files : FileTree) :
    outcome (throw reason : Attempt α) files = throw reason := rfl

@[simp] theorem outcome_bind (attempt : Attempt α) (next : α → Attempt β) (files : FileTree) :
    outcome (attempt >>= next) files = outcome attempt files >>= fun value =>
      outcome (next value) files := by
  have answered : outcome (attempt >>= next) files =
      Inquiry.answer files.view (ExceptT.bindCont next (attempt.run.answer files.view)) :=
    Inquiry.answer_bind files.view attempt.run _
  rw [answered, outcome]
  cases attempt.run.answer files.view <;> rfl

@[simp] theorem outcome_ite (condition : Prop) [Decidable condition] (first second : Attempt α)
    (files : FileTree) : outcome (if condition then first else second) files =
      if condition then outcome first files else outcome second files :=
  apply_ite (outcome · files) condition first second

@[simp] theorem outcome_look (inquiry : Inquiry (Except FileFault α))
    (failure : FileFault → ActionError) (files : FileTree) :
    outcome (look inquiry failure) files = (inquiry.answer files.view).mapError failure :=
  Inquiry.answer_bind files.view inquiry _

@[simp] theorem outcome_orElse {ε : Type} (result : Except ε α) (failure : ε → ActionError)
    (files : FileTree) : outcome (orElse result failure) files = result.mapError failure := rfl

/-- The paths that an attempt looks at. -/
def places (attempt : Attempt α) (files : FileTree) : List String :=
  attempt.run.places files.view

/-- What a step looks at is looked at only when the steps before it end well. -/
theorem mem_places_bind {attempt : Attempt α} {next : α → Attempt β} {files : FileTree}
    {place : String} :
    place ∈ places (attempt >>= next) files ↔ place ∈ places attempt files ∨
      ∃ value, outcome attempt files = .ok value ∧ place ∈ places (next value) files := by
  have looked : places (attempt >>= next) files = places attempt files ++
      Inquiry.places files.view (ExceptT.bindCont next (attempt.run.answer files.view)) :=
    Inquiry.places_bind files.view attempt.run _
  rw [looked, List.mem_append, outcome]
  refine or_congr_right ?_
  cases attempt.run.answer files.view with
  | error reason => exact iff_of_false List.not_mem_nil nofun
  | ok value => simp [ExceptT.bindCont, places, ExceptT.run]

@[simp] theorem places_look (inquiry : Inquiry (Except FileFault α))
    (failure : FileFault → ActionError) (files : FileTree) :
    places (look inquiry failure) files = inquiry.places files.view :=
  (Inquiry.places_bind files.view inquiry _).trans (List.append_nil _)

@[simp] theorem places_lift (inquiry : Inquiry α) (files : FileTree) :
    places (ExceptT.lift inquiry) files = inquiry.places files.view :=
  (Inquiry.places_bind files.view inquiry _).trans (List.append_nil _)

@[simp] theorem places_orElse {ε : Type} (result : Except ε α) (failure : ε → ActionError)
    (files : FileTree) : places (orElse result failure) files = [] := rfl

theorem mem_places_unlock {context : ActionContext} {access : Access} {imagesOffered : Bool}
    {files : FileTree} {place : String}
    (looked : place ∈ places (unlock context access imagesOffered) files) :
    place = access.catalog := by
  simpa [unlock, envelope, mem_places_bind, Inquiry.text, Inquiry.places] using looked

theorem answer_text_eq_ok_iff {files : FileTree} {path text : String} :
    (Inquiry.text path).answer files.view = .ok text ↔ files.HasText path text := by
  show (files.content path >>= fun content => _) = _ ↔ _
  rw [Outcome.bind_eq_ok_iff]
  refine exists_congr fun content => and_congr_right fun _ => ?_
  cases content.toText? <;> simp [throw, throwThe, MonadExceptOf.throw, Outcome.pure_eq_ok_iff]

theorem outcome_unlock_eq_ok_iff {context : ActionContext} {access : Access} {imagesOffered : Bool}
    {files : FileTree} {catalog : Catalog} :
    outcome (unlock context access imagesOffered) files = .ok catalog ↔
      ∃ text envelope, files.HasText access.catalog text ∧ Envelope.parse text = .ok envelope ∧
        Catalog.unwrap envelope (.password access.password) imagesOffered context.worker =
          .ok catalog := by
  simp only [unlock, envelope, outcome_bind, outcome_look, outcome_orElse, Outcome.bind_eq_ok_iff,
    Outcome.mapError_eq_ok_iff, answer_text_eq_ok_iff]
  constructor
  · rintro ⟨envelope, ⟨text, read, parsed⟩, opened⟩
    exact ⟨text, envelope, read, parsed, opened⟩
  · rintro ⟨text, envelope, read, parsed, opened⟩
    exact ⟨envelope, ⟨text, read, parsed⟩, opened⟩

end Attempt

namespace Action

variable {context : ActionContext} {files : FileTree} {action : Action}

/-- A failed action leaves the files alone. -/
theorem perform_of_error {reason : ActionError}
    (failed : (action.perform context files).2 = .error reason) :
    (action.perform context files).1 = files := by
  unfold perform at failed ⊢
  split at failed
  · rfl
  next report attempted =>
    cases applied : applyReport files report with
    | error reason => rfl
    | ok changed =>
        rw [applied] at failed
        cases failed

theorem perform_eq_ok_iff {changed : FileTree} {report : Report} :
    action.perform context files = (changed, .ok report) ↔
      Attempt.outcome (action.attempt context) files = .ok report ∧
        applyReport files report = .ok changed := by
  unfold perform Attempt.outcome
  split
  next reason failed => simp [failed]
  next found attempted =>
    split
    next reason refused =>
      refine ⟨nofun, ?_⟩
      rintro ⟨same, applied⟩
      cases attempted.symm.trans same
      cases refused.symm.trans applied
    next other applied =>
      constructor
      · rintro ⟨⟩
        exact ⟨attempted, applied⟩
      · rintro ⟨same, done⟩
        cases attempted.symm.trans same
        cases applied.symm.trans done
        rfl

/-- The one file that a report changes has the text of the envelope. -/
theorem hasText_of_applyReport {report : Report} {envelope : Envelope} {path : String}
    {changed : FileTree} (change : report.change = some (envelope.change path))
    (applied : applyReport files report = .ok changed) :
    changed.HasText path (Codable.toText envelope) := by
  rw [applyReport, change] at applied
  have written := FileTree.content_of_write (Outcome.mapError_eq_ok_iff.mp applied)
  exact ⟨_, written, Bytes.toText?_ofText _⟩

theorem outcome_sealPlain_eq_ok_iff {input output password : String} {force : Bool}
    {report : Report} :
    Attempt.outcome (attempt context (.sealPlain input output password force)) files = .ok report ↔
      ∃ present, files.present output = .ok present ∧ ¬ (present && !force) = true ∧
        ∃ text, files.HasText input text ∧ ∃ data : CatalogData, Codable.ofText text = .ok data ∧
          sealReport context input output password data = .ok report := by
  simp only [attempt, Attempt.text, Attempt.outcome_bind, Attempt.outcome_ite,
    Attempt.outcome_throw, Attempt.outcome_look, Attempt.outcome_orElse, Outcome.bind_eq_ok_iff,
    Outcome.ite_throw_eq_ok_iff, Outcome.mapError_eq_ok_iff, Attempt.answer_text_eq_ok_iff]
  exact Iff.rfl

theorem outcome_addRecord_eq_ok_iff {access : Access} {id file : String} {imageSupplied : Bool}
    {report : Report} :
    Attempt.outcome (attempt context (.addRecord access id file imageSupplied)) files =
        .ok report ↔
      ∃ catalog, Attempt.outcome (Attempt.unlock context access false) files = .ok catalog ∧
        ¬ catalog.data.records.contains id = true ∧ ∃ text, files.HasText file text ∧
          addReport context access.catalog id catalog text imageSupplied = .ok report := by
  simp only [attempt, Attempt.text, Attempt.outcome_bind, Attempt.outcome_ite,
    Attempt.outcome_throw, Attempt.outcome_look, Attempt.outcome_orElse, Outcome.bind_eq_ok_iff,
    Outcome.ite_throw_eq_ok_iff, Outcome.mapError_eq_ok_iff, Attempt.answer_text_eq_ok_iff]

theorem outcome_changePassword_eq_ok_iff {access : Access} {newPassword : String}
    {report : Report} :
    Attempt.outcome (attempt context (.changePassword access newPassword)) files = .ok report ↔
      ∃ catalog, Attempt.outcome (Attempt.unlock context access false) files = .ok catalog ∧
        passwordReport context access.catalog newPassword catalog = .ok report := by
  simp only [attempt, Attempt.outcome_bind, Attempt.outcome_orElse, Outcome.bind_eq_ok_iff,
    Outcome.mapError_eq_ok_iff]

/-! Reports of writes -/

theorem exists_of_sealReport {input output password : String} {data : CatalogData}
    {report : Report} (done : sealReport context input output password data = .ok report) :
    ∃ envelope databaseKey,
      Catalog.sealData data context.overflow password context.cost context.fresh context.worker =
        .ok (envelope, databaseKey) ∧ report.change = some (envelope.change output) := by
  unfold sealReport at done
  split at done
  · rcases Outcome.bind_eq_ok_iff.mp done with ⟨⟨envelope, databaseKey⟩, sealed, same⟩
    cases same
    exact ⟨envelope, databaseKey, Outcome.mapError_eq_ok_iff.mp sealed, rfl⟩
  · cases done

theorem exists_sealReport_eq_ok {input output password : String} {data : CatalogData}
    (sound : data.configuration.problems = []) {envelope : Envelope} {databaseKey : CipherKey}
    (sealed : Catalog.sealData data context.overflow password context.cost context.fresh
      context.worker = .ok (envelope, databaseKey)) :
    ∃ report, sealReport context input output password data = .ok report ∧
      report.change = some (envelope.change output) := by
  refine ⟨.changed (.object [("input", .string input), ("output", .string output),
    ("records", .int data.records.size), ("internals_size", .int envelope.internals.length)])
    (envelope.change output), ?_, rfl⟩
  unfold sealReport
  rw [sound, sealed]
  rfl

theorem exists_of_addReport {path id text : String} {catalog : Catalog} {imageSupplied : Bool}
    {report : Report}
    (done : addReport context path id catalog text imageSupplied = .ok report) :
    ∃ record pool, importRecord catalog.data.configuration text catalog.data.tagPool
        imageSupplied = .ok (record, pool) ∧
      ∃ envelope, ((catalog.store id record pool).reseal context.overflow
          context.fresh.dataNonce).2 = .ok envelope ∧
        report.change = some (envelope.change path) := by
  unfold addReport at done
  cases imported : importRecord catalog.data.configuration text catalog.data.tagPool
      imageSupplied with
  | error reason =>
      have refused : catalog.importRecord id text imageSupplied =
          (catalog.withPool, .error (.notImported reason)) := by
        simp only [Catalog.importRecord, imported]
      rw [refused] at done
      cases done
  | ok result =>
      rcases result with ⟨record, pool⟩
      have stored : catalog.importRecord id text imageSupplied =
          (catalog.store id record pool, .ok ()) := by
        simp only [Catalog.importRecord, imported]
      rw [stored] at done
      rcases Outcome.bind_eq_ok_iff.mp done with ⟨_, _, rest⟩
      rcases Outcome.bind_eq_ok_iff.mp rest with ⟨envelope, sealed, same⟩
      cases same
      exact ⟨record, pool, rfl, envelope, Outcome.mapError_eq_ok_iff.mp sealed, rfl⟩

theorem exists_addReport_eq_ok {path id text : String} {catalog : Catalog} {imageSupplied : Bool}
    {record : Record} {pool : TagPool}
    (imported : importRecord catalog.data.configuration text catalog.data.tagPool imageSupplied =
      .ok (record, pool))
    {resealed : Catalog} {envelope : Envelope}
    (sealed : (catalog.store id record pool).reseal context.overflow context.fresh.dataNonce =
      (resealed, .ok envelope)) :
    ∃ report, addReport context path id catalog text imageSupplied = .ok report ∧
      report.change = some (envelope.change path) := by
  have stored : catalog.importRecord id text imageSupplied =
      (catalog.store id record pool, .ok ()) := by
    simp only [Catalog.importRecord, imported]
  simp only [addReport, stored, sealed]
  exact ⟨_, rfl, rfl⟩

theorem exists_of_passwordReport {path newPassword : String} {catalog : Catalog} {report : Report}
    (done : passwordReport context path newPassword catalog = .ok report) :
    ∃ envelope, (catalog.changePassword context.overflow newPassword context.cost context.fresh
        context.worker).2 = .ok envelope ∧ report.change = some (envelope.change path) := by
  rcases Outcome.bind_eq_ok_iff.mp done with ⟨envelope, rewrapped, same⟩
  cases same
  exact ⟨envelope, Outcome.mapError_eq_ok_iff.mp rewrapped, rfl⟩

theorem exists_passwordReport_eq_ok {path newPassword : String} {catalog resealed : Catalog}
    {envelope : Envelope}
    (changed : catalog.changePassword context.overflow newPassword context.cost context.fresh
      context.worker = (resealed, .ok envelope)) :
    ∃ report, passwordReport context path newPassword catalog = .ok report ∧
      report.change = some (envelope.change path) := by
  simp only [passwordReport, changed]
  exact ⟨_, rfl, rfl⟩

/-- An attempt that ends well is carried out if its path leads to a file, or to the place of one. -/
theorem exists_perform_eq_ok {report : Report} {envelope : Envelope} {path key : String}
    (attempted : Attempt.outcome (action.attempt context) files = .ok report)
    (change : report.change = some (envelope.change path))
    (leads : (files.place path).key? = some key) :
    ∃ content, action.perform context files = (files.put key (.file content), .ok report) := by
  refine ⟨(envelope.change path).content, perform_eq_ok_iff.mpr ⟨attempted, ?_⟩⟩
  rw [applyReport, change]
  exact Outcome.mapError_eq_ok_iff.mpr (FileTree.write_eq_ok_iff.mpr ⟨key, leads, rfl⟩)

end Action

end SealedCatalog
