import SealedCatalog.Action.Perform
import SealedCatalog.CommandLine.Subcommand
import SealedCatalog.Environment.File
import SealedCatalog.FileTree
import SealedCatalog.Kdf.Reply

/-!
Runs of the whole program on a tree of files. A run first lets the nearest environment file fill in
variables; it ends in an exit status and perhaps in a printed document.
-/

namespace SealedCatalog.Program

def environmentFile : String := ".env"

structure Ending where
  /-- Two for a command line misused, 101 for a program that stopped, one for another failure, and
  zero else. -/
  exit : UInt32
  printed : Option Json

namespace Ending

def done (document : Json) : Ending := ⟨0, some document⟩

def failed : Ending := ⟨1, none⟩

def aborted : Ending := ⟨101, none⟩

def stopped : CommandLine.Stop → Ending
  | .help => ⟨0, none⟩
  | .version => ⟨0, none⟩
  | .misused => ⟨2, none⟩

/-- The ending of an action. One that finds a check not passed prints its report and fails. -/
def ofAction : Except ActionError Report → Ending
  | .ok report => ⟨if report.passed then 0 else 1, some report.document⟩
  | .error .stopped => aborted
  | .error _ => failed

end Ending

def filledIn (environment : Environment) (files : FileTree) : Environment :=
  match files.nearest? environmentFile files.base with
  | some file => environment.extend file
  | none => environment

def context (overflow : Overflow) (environment : Environment) (fresh : Fresh)
    (worker : KdfWorker) : ActionContext :=
  ⟨overflow, KdfCost.ofEnvironment environment, fresh, worker⟩

def run (overflow : Overflow) (environment : Environment) (fresh : Fresh) (worker : KdfWorker)
    (input : Bytes) (files : FileTree) (words : List String) : FileTree × Ending :=
  let environment := filledIn environment files
  match CommandLine.invocation environment words with
  | .error stop => (files, .stopped stop)
  | .ok .serveKdf => (files, .done (Codable.encode (KdfRequest.serve input)))
  | .ok (.act action) =>
      let (changed, result) := action.perform (context overflow environment fresh worker) files
      (changed, .ofAction result)

end SealedCatalog.Program
