import SealedCatalog.Kdf.Job

/-!
Who holds a job. Its handle waits for the outcome and its completion reports it, each once at most;
cancelers made from the handle outlive both. A request of an end that is gone answers nothing.
-/

namespace SealedCatalog

structure KdfEnds where
  job : KdfJob
  handleHeld : Bool
  completionHeld : Bool
  cancelers : Nat
  tasks : Nat
deriving Inhabited

namespace KdfEnds

def start : KdfEnds := ⟨.start, true, true, 0, 0⟩

def addCanceler (ends : KdfEnds) : KdfEnds :=
  if ends.handleHeld then { ends with cancelers := ends.cancelers + 1 } else ends

def cancelIf (ends : KdfEnds) (held : Bool) : KdfEnds × Option Bool :=
  if held then
    let (job, effective) := ends.job.cancel
    ({ ends with job }, some effective)
  else (ends, none)

/-- Cancel through the handle, and say whether that decided the outcome. -/
def cancel (ends : KdfEnds) : KdfEnds × Option Bool :=
  ends.cancelIf ends.handleHeld

def cancelBy (ends : KdfEnds) (canceler : Nat) : KdfEnds × Option Bool :=
  ends.cancelIf (decide (canceler < ends.cancelers))

def completionTold? (ends : KdfEnds) : Option Bool :=
  if ends.completionHeld then some ends.job.cancelRequested else none

def cancelersTold (ends : KdfEnds) : List Bool :=
  List.replicate ends.cancelers ends.job.cancelRequested

/-- Register the task to abort on cancellation. -/
def register (ends : KdfEnds) (task : TaskId) : KdfEnds :=
  if ends.completionHeld then { ends with job := ends.job.register task } else ends

/-- Register a task of its own, if there is a completion to do so. -/
def startTask (ends : KdfEnds) : KdfEnds :=
  if ends.completionHeld then
    { ends.register ends.tasks with tasks := ends.tasks + 1 }
  else ends

def lastAborted? (ends : KdfEnds) : Option Bool :=
  match ends.tasks with
  | 0 => none
  | earlier + 1 => some (ends.job.isAborted earlier)

def finish (ends : KdfEnds) (job : KdfJob) : KdfEnds × Bool :=
  if ends.completionHeld then ({ ends with job, completionHeld := false }, true)
  else (ends, false)

/-- Report an outcome, and say whether there was a completion to do so. -/
def complete (ends : KdfEnds) (outcome : KdfOutcome) : KdfEnds × Bool :=
  ends.finish (ends.job.complete outcome)

def dropCompletion (ends : KdfEnds) : KdfEnds × Bool :=
  ends.finish ends.job.abandon

def dropHandle (ends : KdfEnds) : KdfEnds × Bool :=
  ({ ends with handleHeld := false }, ends.handleHeld)

def wait (ends : KdfEnds) : KdfEnds × Option KdfOutcome :=
  ({ ends with handleHeld := false }, if ends.handleHeld then ends.job.outcome else none)

end KdfEnds

end SealedCatalog
