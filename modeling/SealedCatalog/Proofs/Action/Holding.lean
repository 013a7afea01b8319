import SealedCatalog.Proofs.Action.Attempt
import SealedCatalog.Proofs.Catalog.Resealing

/-! Files that hold catalogs. At most one catalog opens under a password, and what it holds is
rereadable if it was secured before or conceals no markers. -/

namespace SealedCatalog

namespace FileTree

variable {hash : KdfWorker} {files later : FileTree} {path password : String}

/-- The file is an envelope that the password opens, and which holds the data. -/
def Opens (hash : KdfWorker) (files : FileTree) (path password : String) (data : CatalogData) :
    Prop :=
  ∃ text envelope, files.HasText path text ∧ Envelope.parse text = .ok envelope ∧
    Catalog.Reveals hash envelope password data

/-- The text is what the file holds encrypted, as the password decrypts it. -/
def Conceals (hash : KdfWorker) (files : FileTree) (path password text : String) : Prop :=
  ∃ written envelope catalog plain,
    files.HasText path written ∧ Envelope.parse written = .ok envelope ∧
      Catalog.unwrap envelope (.password password) false hash = .ok catalog ∧
      catalog.databaseKey.decrypt envelope.protection.dataNonce envelope.internals = .ok plain ∧
      plain.toText? = some text

theorem HasText.unique {text other : String} (first : files.HasText path text)
    (second : files.HasText path other) : text = other := by
  rcases first with ⟨content, found, spelled⟩
  rcases second with ⟨_, again, alike⟩
  cases found.symm.trans again
  exact Option.some.inj (spelled.symm.trans alike)

theorem Opens.unique {data other : CatalogData} (first : files.Opens hash path password data)
    (second : files.Opens hash path password other) : data = other := by
  rcases first with ⟨text, envelope, read, parsed, catalog, opened, rfl⟩
  rcases second with ⟨_, _, again, alike, _, likewise, rfl⟩
  cases read.unique again
  cases parsed.symm.trans alike
  cases opened.symm.trans likewise
  rfl

theorem Opens.of_content_eq {data : CatalogData} (opens : files.Opens hash path password data)
    (same : later.content path = files.content path) : later.Opens hash path password data := by
  rcases opens with ⟨text, envelope, read, rest⟩
  exact ⟨text, envelope, by rwa [HasText, same], rest⟩

theorem Opens.exists_conceals {data : CatalogData} (opens : files.Opens hash path password data) :
    ∃ text, files.Conceals hash path password text ∧ Codable.ofText text = .ok data := by
  rcases opens with ⟨written, envelope, read, parsed, catalog, opened, rfl⟩
  rcases Outcome.bind_eq_ok_iff.mp opened with ⟨userKey, _, unlocked⟩
  rcases (Catalog.unlock_eq_ok_iff.mp unlocked).decrypted with ⟨plain, decrypted, decoded⟩
  unfold Codable.ofBytes at decoded
  cases spelled : plain.toText? with
  | none =>
      rw [spelled] at decoded
      cases decoded
  | some text =>
      rw [spelled] at decoded
      exact ⟨text, ⟨written, envelope, catalog, plain, read, parsed, opened, decrypted, spelled⟩,
        decoded⟩

theorem opens_of_unlock {context : ActionContext} (follows : context.worker.Follows hash)
    {access : Access} {catalog : Catalog}
    (unlocked : Attempt.outcome (Attempt.unlock context access false) files = .ok catalog) :
    files.Opens hash access.catalog access.password catalog.data ∧
      Session.KeyChain hash catalog.databaseKey ⟨catalog, access.password⟩ := by
  rcases Attempt.outcome_unlock_eq_ok_iff.mp unlocked with ⟨text, envelope, read, parsed, opened⟩
  have followed := Catalog.unwrap_of_follows follows opened
  exact ⟨⟨text, envelope, read, parsed, catalog, followed, rfl⟩,
    Catalog.keyChain_of_unwrap followed⟩

theorem Opens.exists_unlock {context : ActionContext} {data : CatalogData}
    (opens : files.Opens context.worker path password data) :
    ∃ catalog, Attempt.outcome (Attempt.unlock context ⟨path, password⟩ false) files =
      .ok catalog ∧ catalog.data = data ∧ catalog.databaseKey.usage = .both := by
  rcases opens with ⟨text, envelope, read, parsed, catalog, opened, same⟩
  exact ⟨catalog, Attempt.outcome_unlock_eq_ok_iff.mpr ⟨text, envelope, read, parsed, opened⟩,
    same, (Catalog.keyChain_of_unwrap opened).databaseUsage⟩

/-- The password in force, if one is, opens the file, and what it holds can be sealed and read
again. -/
def IsSecured (hash : KdfWorker) (path : String) (inForce : Option String) (files : FileTree) :
    Prop :=
  ∀ password ∈ inForce, ∃ data, files.Opens hash path password data ∧ data.IsRereadable

theorem Opens.isSecured {data : CatalogData} (opens : files.Opens hash path password data)
    (rereadable : data.IsRereadable) : files.IsSecured hash path (some password) := by
  intro other given
  cases given
  exact ⟨data, opens, rereadable⟩

theorem IsSecured.of_content_eq {inForce : Option String}
    (secured : files.IsSecured hash path inForce)
    (same : later.content path = files.content path) : later.IsSecured hash path inForce := by
  intro password given
  rcases secured password given with ⟨data, opens, rereadable⟩
  exact ⟨data, opens.of_content_eq same, rereadable⟩

/-- What a password that is not in force opens has no markers. -/
def IsUnmarked (hash : KdfWorker) (path : String) (inForce : Option String) (files : FileTree)
    (password : String) : Prop :=
  password ∉ inForce → ∀ text, files.Conceals hash path password text →
    CatalogData.SpellsNoMarkers text

theorem IsSecured.isRereadable {inForce : Option String}
    (secured : files.IsSecured hash path inForce)
    (unmarked : files.IsUnmarked hash path inForce password) {data : CatalogData}
    (opens : files.Opens hash path password data) : data.IsRereadable := by
  by_cases given : password ∈ inForce
  · rcases secured password given with ⟨known, opened, rereadable⟩
    exact opens.unique opened ▸ rereadable
  · rcases opens.exists_conceals with ⟨text, conceals, decoded⟩
    exact CatalogData.isRereadable_of_ofText decoded (unmarked given text conceals)

end FileTree

end SealedCatalog
