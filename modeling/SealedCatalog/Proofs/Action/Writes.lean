import Mathlib.Data.List.Chain
import SealedCatalog.Proofs.Action.Holding
import SealedCatalog.Proofs.Catalog.Reopening

/-! Writes of one file, one after another. A write that fails changes no file. One that succeeds
leaves an envelope that the password opens which is in force from then on, and which holds what the
write was to make of the data before. So the password in force opens the file at any time, whatever
failed meanwhile. -/

namespace SealedCatalog

/-! Writes -/

/-- An action that writes the file of a catalog. -/
inductive Write where
  | sealPlain (input password : String) (force : Bool)
  | addRecord (password id file : String) (imageSupplied : Bool)
  | changePassword (password newPassword : String)

namespace Write

def action (path : String) : Write → Action
  | sealPlain input password force => .sealPlain input path password force
  | addRecord password id file imageSupplied => .addRecord ⟨path, password⟩ id file imageSupplied
  | changePassword password newPassword => .changePassword ⟨path, password⟩ newPassword

/-- The password that is in force once the write has succeeded. -/
def password : Write → String
  | sealPlain _ password _ => password
  | addRecord password _ _ _ => password
  | changePassword _ newPassword => newPassword

/-- The data that the write is to seal: those of the input, those of the file with one record more,
or those of the file. -/
inductive Makes (hash : KdfWorker) (path : String) (files : FileTree) :
    Write → CatalogData → Prop where
  | sealPlain {input password : String} {force : Bool} {text : String} {data : CatalogData}
      (read : files.HasText input text) (decoded : Codable.ofText text = .ok data) :
      Makes hash path files (.sealPlain input password force) data
  | addRecord {password id file : String} {imageSupplied : Bool} {data : CatalogData}
      {text : String} {record : Record} {pool : TagPool}
      (opens : files.Opens hash path password data) (absent : data.records.get? id = none)
      (read : files.HasText file text)
      (imported : importRecord data.configuration text data.tagPool imageSupplied =
        .ok (record, pool)) :
      Makes hash path files (.addRecord password id file imageSupplied)
        ((data.withTags pool).withRecord id record)
  | changePassword {password newPassword : String} {data : CatalogData}
      (opens : files.Opens hash path password data) :
      Makes hash path files (.changePassword password newPassword) data

/-- What the write reads has no markers, and no entry gets more tags than the words of 64 bits that
are their indices can number. -/
def IsUnmarked (hash : KdfWorker) (path : String) (inForce : Option String) (files : FileTree) :
    Write → Prop
  | sealPlain input _ _ => ∀ text, files.HasText input text → CatalogData.SpellsNoMarkers text
  | addRecord password id file imageSupplied =>
      files.IsUnmarked hash path inForce password ∧ Marker.IsPlain id ∧
        ∀ text, files.HasText file text →
          (∀ document, Json.parse? text = some document →
            ∀ string ∈ document.texts, Marker.IsPlain string) ∧
          ∀ data record pool, files.Opens hash path password data →
            importRecord data.configuration text data.tagPool imageSupplied = .ok (record, pool) →
              ∀ entry, pool.count entry ≤ Nat.pow 2 64
  | changePassword password _ => files.IsUnmarked hash path inForce password

/-- A write can make one thing of the files only. -/
theorem Makes.unique {hash : KdfWorker} {path : String} {files : FileTree} {write : Write}
    {data other : CatalogData} (makes : write.Makes hash path files data)
    (alike : write.Makes hash path files other) : data = other := by
  cases makes with
  | sealPlain read decoded =>
      cases alike with
      | sealPlain again same =>
          cases read.unique again
          exact Except.ok.inj (decoded.symm.trans same)
  | addRecord opens _ read imported =>
      cases alike with
      | addRecord likewise _ again same =>
          cases opens.unique likewise
          cases read.unique again
          cases imported.symm.trans same
          rfl
  | changePassword opens =>
      cases alike with
      | changePassword likewise => exact opens.unique likewise

end Write

/-- A write, and the files that it finds. -/
structure Run where
  context : ActionContext
  files : FileTree
  write : Write

namespace Run

variable {hash : KdfWorker} {path : String} {inForce : Option String} {run : Run}

def outcome (path : String) (run : Run) : FileTree × Except ActionError Report :=
  (run.write.action path).perform run.context run.files

/-- The password in force after the run. -/
def passwordAfter (path : String) (inForce : Option String) (run : Run) : Option String :=
  match (run.outcome path).2 with
  | .ok _ => some run.write.password
  | .error _ => inForce

/-- What a run relies on: a worker that derives what it should if it derives anything, fresh values
that were drawn, and data without markers. -/
structure IsSound (hash : KdfWorker) (path : String) (inForce : Option String) (run : Run) :
    Prop where
  follows : run.context.worker.Follows hash
  drawn : ∃ random, Fresh.ofBytes? random = some run.context.fresh
  unmarked : run.write.IsUnmarked hash path inForce run.files

theorem opens_of_applyReport {files changed : FileTree} {password : String} {report : Report}
    {envelope : Envelope} {data : CatalogData}
    (change : report.change = some (envelope.change path))
    (applied : Action.applyReport files report = .ok changed)
    (reveals : Catalog.Reveals hash envelope password data) :
    changed.Opens hash path password data :=
  ⟨Codable.toText envelope, envelope, Action.hasText_of_applyReport change applied,
    Envelope.parse_toText envelope, reveals⟩

/-- A run that succeeds leaves what it was to make, under the password that is in force then. -/
theorem exists_makes (secured : run.files.IsSecured hash path inForce)
    (sound : run.IsSound hash path inForce) {changed : FileTree} {report : Report}
    (done : run.outcome path = (changed, .ok report)) :
    ∃ made, run.write.Makes hash path run.files made ∧ made.IsRereadable ∧
      changed.Opens hash path run.write.password made.rewritten := by
  rcases Action.perform_eq_ok_iff.mp done with ⟨attempted, applied⟩
  rcases run with ⟨context, files, write⟩
  rcases sound with ⟨follows, ⟨random, drawn⟩, unmarked⟩
  cases write with
  | sealPlain input password force =>
      rcases Action.outcome_sealPlain_eq_ok_iff.mp attempted with
        ⟨_, _, _, text, read, data, decoded, reported⟩
      rcases Action.exists_of_sealReport reported with ⟨envelope, _, sealed, change⟩
      have rereadable := CatalogData.isRereadable_of_ofText decoded (unmarked text read)
      have reveals := Catalog.reveals_of_sealData rereadable follows drawn sealed
      exact ⟨data, .sealPlain read decoded, rereadable, opens_of_applyReport change applied reveals⟩
  | addRecord password id file imageSupplied =>
      rcases Action.outcome_addRecord_eq_ok_iff.mp attempted with
        ⟨catalog, unlocked, fresh, text, read, reported⟩
      rcases Action.exists_of_addReport reported with
        ⟨record, pool, imported, envelope, sealed, change⟩
      rcases FileTree.opens_of_unlock follows unlocked with ⟨opens, chain⟩
      rcases unmarked with ⟨unmarkedFile, named, unmarkedRecord⟩
      have ⟨plain, few⟩ := unmarkedRecord text read
      have rereadable := (secured.isRereadable unmarkedFile opens).importRecord named plain imported
        (few catalog.data record pool opens imported)
      have absent : catalog.data.records.get? id = none := Option.not_isSome_iff_eq_none.mp fresh
      have reveals := Catalog.reveals_of_reseal (chain.store id record pool) rereadable sealed
      exact ⟨_, .addRecord opens absent read imported, rereadable,
        opens_of_applyReport change applied reveals⟩
  | changePassword password newPassword =>
      rcases Action.outcome_changePassword_eq_ok_iff.mp attempted with ⟨catalog, unlocked, reported⟩
      rcases Action.exists_of_passwordReport reported with ⟨envelope, sealed, change⟩
      rcases FileTree.opens_of_unlock follows unlocked with ⟨opens, chain⟩
      have rereadable := secured.isRereadable unmarked opens
      have reveals := Catalog.reveals_of_changePassword chain rereadable follows sealed
      exact ⟨catalog.data, .changePassword opens, rereadable,
        opens_of_applyReport change applied reveals⟩

/-- The run leaves all files alone, or leaves what it was to make. Either way the password in force
opens the file. -/
structure IsAllOrNothing (hash : KdfWorker) (path : String) (inForce : Option String) (run : Run) :
    Prop where
  failed : ∀ reason, (run.outcome path).2 = .error reason → (run.outcome path).1 = run.files
  succeeded : ∀ report, (run.outcome path).2 = .ok report →
    ∃ made, run.write.Makes hash path run.files made ∧
      (run.outcome path).1.Opens hash path run.write.password made.rewritten
  opened : ∀ password ∈ run.passwordAfter path inForce,
    ∃ data, (run.outcome path).1.Opens hash path password data

theorem isAllOrNothing_of_isSecured (secured : run.files.IsSecured hash path inForce)
    (sound : run.IsSound hash path inForce) :
    run.IsAllOrNothing hash path inForce ∧
      (run.outcome path).1.IsSecured hash path (run.passwordAfter path inForce) := by
  have failed : ∀ reason, (run.outcome path).2 = .error reason →
      (run.outcome path).1 = run.files := fun reason => Action.perform_of_error
  have succeeded : ∀ report, (run.outcome path).2 = .ok report →
      ∃ made, run.write.Makes hash path run.files made ∧ made.IsRereadable ∧
        (run.outcome path).1.Opens hash path run.write.password made.rewritten :=
    fun report done => exists_makes secured sound (Prod.ext rfl done)
  have kept : (run.outcome path).1.IsSecured hash path (run.passwordAfter path inForce) := by
    unfold passwordAfter
    cases ended : (run.outcome path).2 with
    | error reason =>
        rw [failed reason ended]
        exact secured
    | ok report =>
        rcases succeeded report ended with ⟨made, _, rereadable, opens⟩
        exact opens.isSecured rereadable.rewritten
  refine ⟨⟨failed, ?_, ?_⟩, kept⟩
  · intro report done
    rcases succeeded report done with ⟨made, makes, _, opens⟩
    exact ⟨made, makes, opens⟩
  · intro password given
    rcases kept password given with ⟨data, opens, _⟩
    exact ⟨data, opens⟩

/-- The later run finds the file as the earlier one left it. Other files may have changed. -/
def Precedes (path : String) (earlier later : Run) : Prop :=
  later.files.content path = (earlier.outcome path).1.content path

def passwordAfterAll (path : String) (inForce : Option String) (runs : List Run) : Option String :=
  runs.foldl (passwordAfter path) inForce

/-- Each run is sound for the password that the runs before it leave in force. -/
def AreSound (hash : KdfWorker) (path : String) (inForce : Option String) : List Run → Prop
  | [] => True
  | run :: rest =>
      run.IsSound hash path inForce ∧ AreSound hash path (run.passwordAfter path inForce) rest

theorem isAllOrNothing_of_areSound {runs : List Run}
    (secured : ∀ first ∈ runs.head?, first.files.IsSecured hash path inForce)
    (chained : runs.IsChain (Precedes path)) (sound : AreSound hash path inForce runs) :
    ∀ earlier run later, runs = earlier ++ run :: later →
      run.IsAllOrNothing hash path (passwordAfterAll path inForce earlier) := by
  induction runs generalizing inForce with
  | nil =>
      intro earlier run later same
      simp at same
  | cons first rest induction =>
      have ⟨next, others⟩ := List.isChain_cons.mp chained
      rcases isAllOrNothing_of_isSecured (secured first rfl) sound.1 with ⟨atomic, kept⟩
      intro earlier run later same
      cases earlier with
      | nil =>
          cases same
          exact atomic
      | cons other before =>
          cases same
          exact induction (fun second member => kept.of_content_eq (next second member)) others
            sound.2 before run later rfl

/-- Writes of one file are all or nothing, however many there are: each run leaves all files alone
if it fails, and otherwise an envelope that its password opens and which holds what it was to make.
After each run the password in force opens the file. -/
theorem writes_all_or_nothing {runs : List Run} (chained : runs.IsChain (Precedes path))
    (sound : AreSound hash path none runs) :
    ∀ earlier run later, runs = earlier ++ run :: later →
      run.IsAllOrNothing hash path (passwordAfterAll path none earlier) := by
  have unsealed : ∀ first ∈ runs.head?, first.files.IsSecured hash path none :=
    fun first _ password given => (Option.not_mem_none password given).elim
  exact isAllOrNothing_of_areSound unsealed chained sound

/-! Writes that succeed -/

section

variable {context : ActionContext} {files : FileTree} {key : String} {count : UInt64}

/-- Data whose schema has no problems are sealed at a free place, if a key is derived of the
password. -/
theorem exists_outcome_sealPlain {input password text : String} {force : Bool} {data : CatalogData}
    {userKey : CipherKey} (free : files.present path = .ok false)
    (leads : (files.place path).key? = some key) (read : files.HasText input text)
    (decoded : Codable.ofText text = .ok data) (sound : data.configuration.problems = [])
    (both : context.fresh.databaseKey.usage = .both)
    (derived : Catalog.deriveKey context.worker
      (KdfParameters.ofCost context.cost context.fresh.salt) password = .ok userKey)
    (room : context.overflow.next? data.writeCounter = some count) :
    ∃ content report, outcome path ⟨context, files, .sealPlain input password force⟩ =
      (files.put key (.file content), .ok report) := by
  rcases Catalog.exists_sealData_eq_ok derived both room with ⟨envelope, sealed⟩
  rcases Action.exists_sealReport_eq_ok sound sealed with ⟨report, reported, change⟩
  have attempted : Attempt.outcome
      (Action.attempt context (.sealPlain input path password force)) files = .ok report :=
    Action.outcome_sealPlain_eq_ok_iff.mpr
      ⟨false, free, Bool.false_ne_true, text, read, data, decoded, reported⟩
  rcases Action.exists_perform_eq_ok attempted change leads with ⟨content, done⟩
  exact ⟨content, report, done⟩

/-- A record that is imported is added to a file that the password opens. -/
theorem exists_outcome_addRecord {password id file text : String} {imageSupplied : Bool}
    {data : CatalogData} {record : Record} {pool : TagPool}
    (opens : files.Opens context.worker path password data)
    (leads : (files.place path).key? = some key) (absent : data.records.get? id = none)
    (read : files.HasText file text)
    (imported : importRecord data.configuration text data.tagPool imageSupplied =
      .ok (record, pool))
    (room : context.overflow.next? data.writeCounter = some count) :
    ∃ content report, outcome path ⟨context, files, .addRecord password id file imageSupplied⟩ =
      (files.put key (.file content), .ok report) := by
  rcases opens.exists_unlock with ⟨catalog, unlocked, rfl, both⟩
  rcases @Catalog.exists_reseal_eq (catalog.store id record pool) both _ _ room
    context.fresh.dataNonce with ⟨envelope, sealed, _⟩
  rcases @Action.exists_addReport_eq_ok context path _ _ _ _ _ _ imported _ _ sealed with
    ⟨report, reported, change⟩
  have fresh : ¬ catalog.data.records.contains id = true := by
    rw [Dict.contains, absent]
    exact Bool.false_ne_true
  have attempted : Attempt.outcome
      (Action.attempt context (.addRecord ⟨path, password⟩ id file imageSupplied)) files =
        .ok report :=
    Action.outcome_addRecord_eq_ok_iff.mpr ⟨catalog, unlocked, fresh, text, read, reported⟩
  rcases Action.exists_perform_eq_ok attempted change leads with ⟨content, done⟩
  exact ⟨content, report, done⟩

/-- The password of a file that it opens is changed to one of which a key is derived. -/
theorem exists_outcome_changePassword {password newPassword : String} {data : CatalogData}
    {userKey : CipherKey} (opens : files.Opens context.worker path password data)
    (leads : (files.place path).key? = some key)
    (derived : Catalog.deriveKey context.worker
      (KdfParameters.ofCost context.cost context.fresh.salt) newPassword = .ok userKey)
    (room : context.overflow.next? data.writeCounter = some count) :
    ∃ content report, outcome path ⟨context, files, .changePassword password newPassword⟩ =
      (files.put key (.file content), .ok report) := by
  rcases opens.exists_unlock with ⟨catalog, unlocked, rfl, both⟩
  rcases @Catalog.exists_reseal_eq (catalog.rewrapped userKey context.cost context.fresh) both _ _
    room context.fresh.dataNonce with ⟨envelope, sealed, _⟩
  have changed := (Catalog.changePassword_of_derived derived catalog context.overflow).trans sealed
  rcases @Action.exists_passwordReport_eq_ok _ path _ _ _ _ changed with ⟨report, reported, change⟩
  have attempted : Attempt.outcome
      (Action.attempt context (.changePassword ⟨path, password⟩ newPassword)) files = .ok report :=
    Action.outcome_changePassword_eq_ok_iff.mpr ⟨catalog, unlocked, reported⟩
  rcases Action.exists_perform_eq_ok attempted change leads with ⟨content, done⟩
  exact ⟨content, report, done⟩

end

theorem passwordAfter_of_ok {changed : FileTree} {report : Report}
    (done : run.outcome path = (changed, .ok report)) :
    run.passwordAfter path inForce = some run.write.password := by
  rw [passwordAfter, done]

/-- What a run that succeeds makes of its files is in them afterwards. -/
theorem opens_of_makes (secured : run.files.IsSecured hash path inForce)
    (sound : run.IsSound hash path inForce) {made : CatalogData}
    (makes : run.write.Makes hash path run.files made) {changed : FileTree} {report : Report}
    (done : run.outcome path = (changed, .ok report)) :
    changed.Opens hash path run.write.password made.rewritten ∧
      changed.IsSecured hash path (some run.write.password) := by
  rcases exists_makes secured sound done with ⟨other, alike, rereadable, opens⟩
  cases makes.unique alike
  exact ⟨opens, opens.isSecured rereadable.rewritten⟩

/-! A catalog that is sealed, gets a record and another password, and is not sealed over -/

/-- A catalog of titles that has one. -/
def shelf : CatalogData :=
  { CatalogData.new (.ofEntries [.string "title" .unset]) with
    records := Dict.ofList [("a", Catalog.titledRecord "Blue")] }

/-- The text of a record. -/
def leaf : String :=
  (Json.object [("title", .string "Red")]).render

/-- The files of the plain data and of the record. -/
def stock : FileTree :=
  (FileTree.empty.put "d" (.file (Bytes.ofText (Codable.toText shelf)))).put "r"
    (.file (Bytes.ofText leaf))

def shelving (files : FileTree) (write : Write) : Run where
  context := ⟨.stops, .least, Session.zeros, KdfRequest.derive⟩
  files
  write

def sealing : Run :=
  shelving stock (.sealPlain "d" "pw" false)

def adding : Run :=
  shelving (sealing.outcome "c").1 (.addRecord "pw" "b" "r" false)

def rekeying : Run :=
  shelving (adding.outcome "c").1 (.changePassword "pw" "new")

def sealingOver : Run :=
  shelving (rekeying.outcome "c").1 (.sealPlain "d" "pw" false)

/-- The data of the catalog with the record. -/
def fullShelf : CatalogData :=
  (shelf.rewritten.withTags TagPool.empty).withRecord "b" (Catalog.titledRecord "Red")

private theorem isPlain_shelf : shelf.IsPlain where
  texts := by decide
  integral := .object (List.forall_mem_nil _)
  canonical := .object .nil (List.forall_mem_nil _)
  indices := by decide
  shallow := by decide

private theorem isRereadable_shelf : shelf.IsRereadable where
  texts := isPlain_shelf.texts
  canonical := isPlain_shelf.canonical
  indices := isPlain_shelf.indices
  settings := ⟨.object (List.forall_mem_nil _), by decide⟩

private theorem accepted_shelf : Codable.ofText (Codable.toText shelf) = .ok shelf :=
  (CatalogData.ofText_toText_iff_isRevivable isPlain_shelf.indices isPlain_shelf.integral).mpr
    isPlain_shelf.isRevivable

/-- The plain data and the record stand in the files of a root. -/
private structure IsStocked (files : FileTree) : Prop where
  base : files.base = []
  data : files.nodes.get? "d" = some (.file (Bytes.ofText (Codable.toText shelf)))
  record : files.nodes.get? "r" = some (.file (Bytes.ofText leaf))

private theorem isStocked_stock : IsStocked stock where
  base := rfl
  data := rfl
  record := rfl

private theorem IsStocked.put {files : FileTree} (stocked : IsStocked files) (node : FileNode) :
    IsStocked (files.put "c" node) where
  base := stocked.base
  data := (Dict.get?_insert_of_ne _ (by decide) _).trans stocked.data
  record := (Dict.get?_insert_of_ne _ (by decide) _).trans stocked.record

private theorem names_eq_singleton :
    ∀ name ∈ ["c", "d", "r"], FileTree.names name = [name] := by
  refine List.forall_mem_cons.mpr ⟨?_, List.forall_mem_cons.mpr
    ⟨?_, List.forall_mem_singleton.mpr ?_⟩⟩
  all_goals
    rw [FileTree.names, String.splitOn, if_neg (by decide)]
    unfold String.splitOnAux
    rw [if_neg (by decide), if_neg (by decide)]
    unfold String.splitOnAux
    rw [if_pos (by decide)]
    decide

private theorem place_eq {tree : FileTree} (base : tree.base = []) :
    ∀ name ∈ ["c", "d", "r"], tree.place name =
      match tree.nodes.get? name with
      | some .directory => .directory
      | some (.file content) => .file name content
      | none => .free name := by
  intro name member
  have start : tree.start name = [] := by
    rw [FileTree.start, base, ite_self]
  rw [FileTree.place, start, names_eq_singleton name member]
  simp only [List.mem_cons, List.not_mem_nil, or_false] at member
  rcases member with rfl | rfl | rfl
  all_goals
    rw [if_neg (by simp), if_neg (by decide), FileTree.follow, if_neg (by decide),
      if_neg (by decide), if_neg (by decide)]
    rfl

private theorem IsStocked.hasText {files : FileTree} (stocked : IsStocked files) :
    files.HasText "d" (Codable.toText shelf) ∧ files.HasText "r" leaf := by
  refine ⟨⟨_, ?_, Bytes.toText?_ofText _⟩, ⟨_, ?_, Bytes.toText?_ofText _⟩⟩
  · rw [FileTree.content, place_eq stocked.base "d" (by decide), stocked.data]
  · rw [FileTree.content, place_eq stocked.base "r" (by decide), stocked.record]

/-- The place of the catalog, before it is sealed and after. -/
private theorem IsStocked.leads {files : FileTree} (stocked : IsStocked files)
    (plain : files.nodes.get? "c" ≠ some .directory) : (files.place "c").key? = some "c" := by
  rw [place_eq stocked.base "c" (by decide)]
  cases found : files.nodes.get? "c" with
  | none => rfl
  | some node =>
      cases node with
      | file content => rfl
      | directory => exact absurd found plain

private theorem isSound_sealPlain {files : FileTree} (stocked : IsStocked files)
    (inForce : Option String) :
    (shelving files (.sealPlain "d" "pw" false)).IsSound KdfRequest.derive "c" inForce where
  follows := KdfWorker.follows_self _
  drawn := ⟨List.replicate Fresh.length 0, rfl⟩
  unmarked := fun _ read =>
    read.unique stocked.hasText.1 ▸ isRereadable_shelf.spellsNoMarkers

/-- The run has written data to the catalog and left the other files alone. -/
private structure Leaves (run : Run) (data : CatalogData) : Prop where
  succeeded : ∃ report, (run.outcome "c").2 = .ok report
  stocked : IsStocked (run.outcome "c").1
  written : ∃ content, (run.outcome "c").1.nodes.get? "c" = some (.file content)
  opens : (run.outcome "c").1.Opens KdfRequest.derive "c" run.write.password data
  secured : (run.outcome "c").1.IsSecured KdfRequest.derive "c" (some run.write.password)

private theorem leaves_of_makes (stocked : IsStocked run.files)
    (secured : run.files.IsSecured KdfRequest.derive "c" inForce)
    (sound : run.IsSound KdfRequest.derive "c" inForce) {made : CatalogData}
    (makes : run.write.Makes KdfRequest.derive "c" run.files made)
    (done : ∃ content report, run.outcome "c" = (run.files.put "c" (.file content), .ok report)) :
    run.Leaves made.rewritten := by
  rcases done with ⟨content, report, done⟩
  have left : (run.outcome "c").1 = run.files.put "c" (.file content) := congrArg Prod.fst done
  rcases opens_of_makes secured sound makes done with ⟨opens, kept⟩
  exact {
    succeeded := ⟨report, congrArg Prod.snd done⟩
    stocked := left ▸ stocked.put _
    written := ⟨content, left ▸ Dict.get?_insert_self _ _ _⟩
    opens := left ▸ opens
    secured := left ▸ kept }

private theorem Leaves.leads {data : CatalogData} (leaves : run.Leaves data) :
    ((run.outcome "c").1.place "c").key? = some "c" := by
  rcases leaves.written with ⟨content, found⟩
  exact leaves.stocked.leads (by simp [found])

private theorem leaves_sealing : sealing.Leaves shelf.rewritten := by
  rcases @Session.exists_deriveKey_eq_ok "pw" (by decide +kernel) with ⟨userKey, derived⟩
  have stocked := isStocked_stock
  have unsealed : stock.IsSecured KdfRequest.derive "c" none :=
    fun password given => (Option.not_mem_none password given).elim
  have free : stock.present "c" = .ok false := by
    rw [FileTree.present, place_eq stocked.base "c" (by decide)]
    rfl
  have sound : shelf.configuration.problems = [] := by decide
  exact leaves_of_makes stocked unsealed (isSound_sealPlain stocked none)
    (.sealPlain stocked.hasText.1 accepted_shelf)
    (exists_outcome_sealPlain free (stocked.leads (by decide)) stocked.hasText.1 accepted_shelf
      sound rfl derived rfl)

private theorem imported_leaf :
    importRecord shelf.rewritten.configuration leaf shelf.rewritten.tagPool false =
      .ok (Catalog.titledRecord "Red", TagPool.empty) :=
  Catalog.importRecord_title (by decide)

private theorem isSound_adding : adding.IsSound KdfRequest.derive "c" (some "pw") where
  follows := KdfWorker.follows_self _
  drawn := ⟨List.replicate Fresh.length 0, rfl⟩
  unmarked := by
    refine ⟨fun other => absurd rfl other, by decide, fun text read => ?_⟩
    have same : text = leaf := read.unique leaves_sealing.stocked.hasText.2
    rw [same]
    constructor
    · intro document parsed
      rw [leaf, Catalog.parse?_title] at parsed
      cases parsed
      decide
    · intro data record pool opens imported entry
      cases opens.unique leaves_sealing.opens
      cases imported_leaf.symm.trans imported
      exact Nat.zero_le _

private theorem leaves_adding : adding.Leaves fullShelf.rewritten := by
  have before := leaves_sealing
  have absent : shelf.rewritten.records.get? "b" = none := by decide
  exact leaves_of_makes before.stocked before.secured isSound_adding
    (.addRecord before.opens absent before.stocked.hasText.2 imported_leaf)
    (exists_outcome_addRecord before.opens before.leads absent before.stocked.hasText.2
      imported_leaf rfl)

private theorem isSound_rekeying : rekeying.IsSound KdfRequest.derive "c" (some "pw") where
  follows := KdfWorker.follows_self _
  drawn := ⟨List.replicate Fresh.length 0, rfl⟩
  unmarked := fun other => absurd rfl other

private theorem leaves_rekeying : rekeying.Leaves fullShelf.rewritten.rewritten := by
  rcases @Session.exists_deriveKey_eq_ok "new" (by decide +kernel) with ⟨userKey, derived⟩
  have before := leaves_adding
  exact leaves_of_makes before.stocked before.secured isSound_rekeying
    (.changePassword before.opens)
    (exists_outcome_changePassword before.opens before.leads derived rfl)

private theorem refused_sealingOver : ∃ reason, (sealingOver.outcome "c").2 = .error reason := by
  have before := leaves_rekeying
  cases ended : (sealingOver.outcome "c").2 with
  | error reason => exact ⟨reason, rfl⟩
  | ok report =>
      have attempted := (Action.perform_eq_ok_iff.mp (Prod.ext rfl ended)).1
      rcases Action.outcome_sealPlain_eq_ok_iff.mp attempted with ⟨present, inspected, free, _⟩
      have there : sealingOver.files.present "c" = .ok true := by
        rcases before.written with ⟨content, found⟩
        show (rekeying.outcome "c").1.present "c" = .ok true
        rw [FileTree.present, place_eq before.stocked.base "c" (by decide), found]
      cases there.symm.trans inspected
      exact absurd rfl free

/-- A seal, an import and a change of the password succeed one after another, and the file opens
under the new password with both records also after a seal that is refused. -/
theorem writes_all_or_nothing_shelf :
    let runs := [sealing, adding, rekeying, sealingOver]
    (runs.IsChain (Precedes "c") ∧ AreSound KdfRequest.derive "c" none runs) ∧
      (∀ run ∈ [sealing, adding, rekeying], ∃ report, (run.outcome "c").2 = .ok report) ∧
      (∃ reason, (sealingOver.outcome "c").2 = .error reason) ∧
      (sealingOver.outcome "c").1 = (rekeying.outcome "c").1 ∧
      ∃ data, (sealingOver.outcome "c").1.Opens KdfRequest.derive "c" "new" data ∧
        data.records = Dict.ofList
          [("a", Catalog.titledRecord "Blue"), ("b", Catalog.titledRecord "Red")] := by
  intro runs
  have after : ∀ {run : Run} {data : CatalogData} inForce, run.Leaves data →
      run.passwordAfter "c" inForce = some run.write.password := by
    intro run data inForce leaves
    rcases leaves.succeeded with ⟨report, ended⟩
    exact passwordAfter_of_ok (Prod.ext rfl ended)
  have chained : runs.IsChain (Precedes "c") :=
    .cons_cons rfl (.cons_cons rfl (.cons_cons rfl (.singleton _)))
  have sound : AreSound KdfRequest.derive "c" none runs := by
    refine ⟨isSound_sealPlain isStocked_stock none, ?_⟩
    rw [after none leaves_sealing]
    refine ⟨isSound_adding, ?_⟩
    rw [after _ leaves_adding]
    refine ⟨isSound_rekeying, ?_⟩
    exact ⟨isSound_sealPlain leaves_rekeying.stocked _, trivial⟩
  have atomic := writes_all_or_nothing chained sound
  rcases refused_sealingOver with ⟨reason, refused⟩
  have unchanged := (atomic [sealing, adding, rekeying] sealingOver [] rfl).failed reason refused
  have succeeded : ∀ run ∈ [sealing, adding, rekeying],
      ∃ report, (run.outcome "c").2 = .ok report := by
    refine List.forall_mem_cons.mpr ⟨leaves_sealing.succeeded, List.forall_mem_cons.mpr
      ⟨leaves_adding.succeeded, List.forall_mem_singleton.mpr leaves_rekeying.succeeded⟩⟩
  refine ⟨⟨chained, sound⟩, succeeded, ⟨reason, refused⟩, unchanged,
    fullShelf.rewritten.rewritten, ?_, rfl⟩
  rw [unchanged]
  exact leaves_rekeying.opens

end Run

end SealedCatalog
