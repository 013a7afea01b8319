import SealedCatalog.Action
import SealedCatalog.Catalog
import SealedCatalog.Configuration.Document
import SealedCatalog.FileTree
import SealedCatalog.Image.Directory
import SealedCatalog.Query.Command
import SealedCatalog.Query.Evaluation

/-!
What each action does. An action is an inquiry, which looks at files and ends in a report or an
error. The change that a report asks for is all that happens to the files, so a failed action
changes none.
-/

namespace SealedCatalog

structure ActionContext where
  overflow : Overflow
  cost : KdfCost
  fresh : Fresh
  worker : KdfWorker

abbrev Attempt := ExceptT ActionError Inquiry

namespace Attempt

def look (inquiry : Inquiry (Except FileFault α)) (failure : FileFault → ActionError) :
    Attempt α :=
  ExceptT.mk do return (← inquiry).mapError failure

def orElse (result : Except ε α) (failure : ε → ActionError) : Attempt α :=
  ExceptT.mk (pure (result.mapError failure))

def text (path : String) : Attempt String :=
  look (Inquiry.text path) (.unreadable path)

def envelope (path : String) : Attempt Envelope := do
  let found ← look (Inquiry.text path) (.unreadableCatalog path)
  orElse (Envelope.parse found) .catalog

def unlockError (path : String) (reason : CatalogError) : ActionError :=
  if reason.isUnauthentic then .locked path else .catalog reason

def unlock (context : ActionContext) (access : Access) (imagesOffered : Bool) :
    Attempt Catalog := do
  let envelope ← envelope access.catalog
  orElse (Catalog.unwrap envelope (.password access.password) imagesOffered context.worker)
    (unlockError access.catalog)

end Attempt

def Envelope.change (envelope : Envelope) (path : String) : FileChange :=
  ⟨path, Bytes.ofText (Codable.toText envelope), true⟩

namespace Action

private def count (number : Nat) : Json := .int number

private def texts (values : List String) : Json := .array (values.map .string)

def describeReport (catalog : String) (envelope : Envelope) : Report :=
  let derivation := envelope.protection.derivation
  .found (.object [("catalog", .string catalog),
    ("kdf", .object [("algorithm", .string "argon2id"),
      ("memory_kib", Json.ofUInt32 derivation.memoryKib),
      ("iterations", Json.ofUInt32 derivation.iterations),
      ("threads", Json.ofUInt32 derivation.threads)]),
    ("internals_size", count envelope.internals.length)])

def listedIds (catalog : Catalog) (descending : Bool) :
    Option String → Except ActionError (List String)
  | some entry =>
      match catalog.sortedIds entry descending with
      | some ids => .ok ids
      | none => .error (.unknownEntry entry)
  | none =>
      let ids := catalog.data.records.keys
      .ok (if descending then ids.reverse else ids)

def listReport (catalog : Catalog) (ids : List String) : Report :=
  let listed := ids.filterMap fun id =>
    (catalog.data.records.get? id).map fun record =>
      Json.object [("id", .string id), ("record", Codable.encode record)]
  .found (.object [("count", count listed.length), ("records", .array listed)])

/-- The query of several commands. The first invalid one is reported. -/
def queryOf (configuration : Configuration) (commands : List String) (anySuffices : Bool) :
    Except ActionError Query :=
  match commands.find? fun command => (Query.ofCommand? configuration command).isNone with
  | some invalid => .error (.invalidQuery invalid)
  | none =>
      .ok (Query.combine anySuffices (commands.filterMap (Query.ofCommand? configuration)))

def searchReport (catalog : Catalog) (query : Query) : Report :=
  let ids := catalog.data.search query
  .found (.object [("query", .string query.explain), ("count", count ids.length),
    ("ids", texts ids)])

def operatorsReport (catalog : Catalog) : Report :=
  .found (.object [("entries", .array (catalog.data.configuration.entries.map fun entry =>
    .object [("entry", .string entry.name),
      ("operators", .array ((Query.operators entry).map fun (operator, explanation) =>
        .object [("operator", .string operator.toString),
          ("explanation", .string explanation)]))]))])

def checkReport (file : String) (problems : List ConfigurationProblem) : Report where
  document := .object [("file", .string file), ("valid", .bool problems.isEmpty),
    ("violations", texts (problems.map ConfigurationProblem.message))]
  change := none
  passed := problems.isEmpty

def diagnoseReport (catalog : Catalog) : Report :=
  let invalid := catalog.diagnose
  .found (.object [("records", count catalog.data.records.size),
    ("invalid_count", count invalid.length),
    ("invalid", .array (invalid.map fun (id, problems) =>
      .object [("id", .string id), ("reasons", .array (problems.map fun problem =>
        .object [("reason", problem.toJson), ("message", .string problem.message)]))]))])

/-- The report of plain data sealed, unless the schema has problems. -/
def sealReport (context : ActionContext) (input output password : String) (data : CatalogData) :
    Except ActionError Report :=
  match data.configuration.problems with
  | [] => do
      let (envelope, _) ←
        (Catalog.sealData data context.overflow password context.cost context.fresh
          context.worker).mapError .ofSealFault
      return .changed (.object [("input", .string input), ("output", .string output),
        ("records", count data.records.size),
        ("internals_size", count envelope.internals.length)]) (envelope.change output)
  | problems => .error (.badConfiguration problems)

def addReport (context : ActionContext) (path id : String) (catalog : Catalog) (record : String)
    (imageSupplied : Bool) : Except ActionError Report := do
  let (changed, imported) := catalog.importRecord id record imageSupplied
  imported.mapError .catalog
  let (resealed, outcome) := changed.reseal context.overflow context.fresh.dataNonce
  let envelope ← outcome.mapError .ofSealFault
  return .changed (.object [("catalog", .string path), ("id", .string id),
    ("records", count resealed.data.records.size),
    ("encrypted_counter", Json.ofUInt64 resealed.data.writeCounter)]) (envelope.change path)

def passwordReport (context : ActionContext) (path newPassword : String) (catalog : Catalog) :
    Except ActionError Report := do
  let (changed, outcome) :=
    catalog.changePassword context.overflow newPassword context.cost context.fresh context.worker
  let envelope ← outcome.mapError .ofSealFault
  return .changed (.object [("catalog", .string path),
    ("encrypted_counter", Json.ofUInt64 changed.data.writeCounter)]) (envelope.change path)

def imageReport (format : ImageFormat) (stem output : String) (image : Bytes) : Report :=
  .changed (.object [("image", .string (format.fileName stem)), ("mime", .string format.mime),
    ("output", .string output), ("size", count image.length)]) ⟨output, image, false⟩

def attempt (context : ActionContext) : Action → Attempt Report
  | describe catalog => do
      return describeReport catalog (← Attempt.envelope catalog)
  | list access entry descending => do
      let catalog ← Attempt.unlock context access false
      return listReport catalog (← Attempt.orElse (listedIds catalog descending entry) id)
  | search access queries anySuffices => do
      let catalog ← Attempt.unlock context access false
      let query ← Attempt.orElse (queryOf catalog.data.configuration queries anySuffices) id
      return searchReport catalog query
  | listOperators access => do
      return operatorsReport (← Attempt.unlock context access false)
  | checkConfiguration file => do
      match Json.parse? (← Attempt.text file) with
      | some document => return checkReport file (Configuration.documentProblems document)
      | none => throw (.notJson file)
  | diagnose access => do
      return diagnoseReport (← Attempt.unlock context access false)
  | sealPlain input output password force => do
      let present ← Attempt.look (Inquiry.present output) (.uninspectable output)
      if present && !force then
        throw (.alreadyThere output)
      let text ← Attempt.text input
      let data ← Attempt.orElse (Codable.ofText text) (.notData input)
      Attempt.orElse (sealReport context input output password data) id
  | addRecord access recordId file imageSupplied => do
      let catalog ← Attempt.unlock context access false
      if catalog.data.records.contains recordId then
        throw (.recordExists recordId)
      let record ← Attempt.text file
      Attempt.orElse (addReport context access.catalog recordId catalog record imageSupplied) id
  | changePassword access newPassword => do
      let catalog ← Attempt.unlock context access false
      Attempt.orElse (passwordReport context access.catalog newPassword catalog) id
  | exportImage access directory stem thumbnail output => do
      let catalog ← Attempt.unlock context access true
      if !catalog.imageSupport then
        throw (.withoutImages access.catalog)
      let format := if thumbnail then ImageFormat.thumbnail else ImageFormat.full
      let found ← ExceptT.lift (ImageDirectory.load directory (format.fileName stem))
      let image ← Attempt.orElse (catalog.loadImage (fun _ => found) stem format) .catalog
      return imageReport format stem output image

def applyReport (files : FileTree) (report : Report) : Except ActionError FileTree :=
  match report.change with
  | none => .ok files
  | some change => (files.write change.path change.content).mapError change.failure

def perform (context : ActionContext) (files : FileTree) (action : Action) :
    FileTree × Except ActionError Report :=
  match (action.attempt context).run.answer files.view with
  | .error reason => (files, .error reason)
  | .ok report =>
      match applyReport files report with
      | .error reason => (files, .error reason)
      | .ok changed => (changed, .ok report)

end Action

end SealedCatalog
