import SealedCatalog.Kdf

/-!
A derivation under way, which may be cancelled. The first of cancellation, completion and
abandonment decides what the waiter gets; whatever comes later changes nothing for it. Cancellation
aborts the task that was registered last, and tasks registered after a cancellation are aborted at
once.
-/

namespace SealedCatalog

abbrev TaskId := Nat

structure KdfJob where
  /-- Whether cancellation was ever asked for, be it too late. -/
  cancelRequested : Bool
  /-- What the waiter gets, once that is decided. -/
  outcome : Option KdfOutcome
  registered : Option TaskId
  aborted : List TaskId
deriving Inhabited

namespace KdfJob

def start : KdfJob := ⟨false, none, none, []⟩

def decideOutcome (job : KdfJob) (outcome : KdfOutcome) : KdfJob :=
  match job.outcome with
  | none => { job with outcome := some outcome }
  | some _ => job

def complete (job : KdfJob) (outcome : KdfOutcome) : KdfJob :=
  job.decideOutcome outcome

def abandon (job : KdfJob) : KdfJob :=
  job.decideOutcome (.error .vanished)

/-- Cancel the job, and say whether that decided the outcome. -/
def cancel (job : KdfJob) : KdfJob × Bool :=
  if job.cancelRequested then (job, false)
  else
    match job.outcome with
    | some _ => ({ job with cancelRequested := true }, false)
    | none =>
        ({ cancelRequested := true
           outcome := some (.error .cancelled)
           registered := none
           aborted := job.aborted ++ job.registered.toList }, true)

def register (job : KdfJob) (task : TaskId) : KdfJob :=
  if job.cancelRequested then { job with aborted := job.aborted ++ [task] }
  else { job with registered := some task }

def isAborted (job : KdfJob) (task : TaskId) : Bool :=
  job.aborted.contains task

end KdfJob

end SealedCatalog
