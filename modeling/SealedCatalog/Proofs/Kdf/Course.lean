import SealedCatalog.Kdf.Ends

/-! Courses of a derivation under way. Its ends may be used in any order, by any number of
cancelers, and each course keeps the form that its first cancellation, completion or abandonment
gives it. -/

namespace SealedCatalog

instance KdfOutcome.decidableEq : DecidableEq KdfOutcome
  | .ok left, .ok right => decidable_of_iff (left = right) ⟨congrArg _, Except.ok.inj⟩
  | .error left, .error right => decidable_of_iff (left = right) ⟨congrArg _, Except.error.inj⟩
  | .ok _, .error _ => isFalse nofun
  | .error _, .ok _ => isFalse nofun

/-- What happens to a job through one of its ends. -/
inductive KdfEvent where
  /-- A cancellation, and whether its caller was told that it decided the outcome. -/
  | cancelled (effective : Bool)
  | registered (task : TaskId)
  | completed (outcome : KdfOutcome)
  | abandoned

namespace KdfEvent

/-- The outcome that the event stands for. -/
def verdict? : KdfEvent → Option KdfOutcome
  | cancelled _ => some (.error .cancelled)
  | registered _ => none
  | completed outcome => some outcome
  | abandoned => some (.error (.failed (-1) "key derivation worker stopped unexpectedly"))

def isCancellation : KdfEvent → Bool
  | cancelled _ => true
  | _ => false

def isEffective : KdfEvent → Bool
  | cancelled effective => effective
  | _ => false

def task? : KdfEvent → Option TaskId
  | registered task => some task
  | _ => none

theorem isEffective_of_isCancellation_eq_false {event : KdfEvent}
    (other : event.isCancellation = false) : event.isEffective = false := by
  cases event with
  | cancelled => cases other
  | _ => rfl

theorem isEffective_of_verdict?_eq_none {event : KdfEvent} (undecided : event.verdict? = none) :
    event.isEffective = false := by
  cases event with
  | registered => rfl
  | _ => cases undecided

theorem isCancellation_of_verdict?_eq_none {event : KdfEvent} (undecided : event.verdict? = none) :
    event.isCancellation = false := by
  cases event with
  | registered => rfl
  | _ => cases undecided

end KdfEvent

theorem KdfJob.cancel_of_decided {job : KdfJob} {outcome : KdfOutcome}
    (decided : job.outcome = some outcome) :
    job.cancel = ({ job with cancelRequested := true }, false) := by
  cases job with
  | mk cancelRequested =>
      cases decided
      cases cancelRequested <;> rfl

theorem KdfJob.outcome_register (job : KdfJob) (task : TaskId) :
    (job.register task).outcome = job.outcome := by
  unfold register
  split <;> rfl

namespace KdfEnds

inductive Request where
  | addCanceler
  | cancel
  | cancelBy (canceler : Nat)
  | register (task : TaskId)
  | complete (outcome : KdfOutcome)
  | dropCompletion
  /-- The handle is dropped, or it waits from now on. -/
  | dropHandle

/-- The ends after a request, and what happened to the job. Through an end that is gone nothing
happens. -/
def request (ends : KdfEnds) : Request → KdfEnds × Option KdfEvent
  | .addCanceler => (ends.addCanceler, none)
  | .cancel => (ends.cancel.1, ends.cancel.2.map .cancelled)
  | .cancelBy canceler =>
      ((ends.cancelBy canceler).1, (ends.cancelBy canceler).2.map .cancelled)
  | .register task =>
      (ends.register task, if ends.completionHeld then some (.registered task) else none)
  | .complete outcome =>
      ((ends.complete outcome).1,
        if (ends.complete outcome).2 then some (.completed outcome) else none)
  | .dropCompletion =>
      (ends.dropCompletion.1, if ends.dropCompletion.2 then some .abandoned else none)
  | .dropHandle => (ends.dropHandle.1, none)

/-- What a request can do to a job, by what happens. -/
inductive Happens (ends : KdfEnds) : Option KdfEvent → KdfJob → Bool → Prop where
  | nothing : Happens ends none ends.job ends.completionHeld
  | cancelled : Happens ends (some (.cancelled ends.job.cancel.2)) ends.job.cancel.1
      ends.completionHeld
  | registered {task : TaskId} (held : ends.completionHeld = true) :
      Happens ends (some (.registered task)) (ends.job.register task) true
  | finished {event : KdfEvent} {outcome : KdfOutcome} (held : ends.completionHeld = true)
      (other : event.isCancellation = false) (verdict : event.verdict? = some outcome) :
      Happens ends (some event) (ends.job.decideOutcome outcome) false

theorem happens_cancelIf (ends : KdfEnds) (held : Bool) :
    ends.Happens ((ends.cancelIf held).2.map .cancelled) (ends.cancelIf held).1.job
      (ends.cancelIf held).1.completionHeld := by
  cases held with
  | false => exact .nothing
  | true => exact .cancelled

theorem happens_finish (ends : KdfEnds) {event : KdfEvent} {outcome : KdfOutcome}
    (other : event.isCancellation = false) (verdict : event.verdict? = some outcome) :
    let finished := ends.finish (ends.job.decideOutcome outcome)
    ends.Happens (if finished.2 then some event else none) finished.1.job
      finished.1.completionHeld := by
  by_cases held : ends.completionHeld = true
  · simp only [finish, if_pos held, if_true]
    exact .finished held other verdict
  · simp only [finish, if_neg held, Bool.false_eq_true, if_false]
    exact .nothing

theorem happens_request (ends : KdfEnds) (request : Request) :
    ends.Happens (ends.request request).2 (ends.request request).1.job
      (ends.request request).1.completionHeld := by
  cases request with
  | addCanceler =>
      show ends.Happens none ends.addCanceler.job ends.addCanceler.completionHeld
      unfold addCanceler
      split <;> exact .nothing
  | cancel => exact ends.happens_cancelIf ends.handleHeld
  | cancelBy canceler => exact ends.happens_cancelIf (decide (canceler < ends.cancelers))
  | register task =>
      show ends.Happens (if ends.completionHeld then some (.registered task) else none)
        (ends.register task).job (ends.register task).completionHeld
      by_cases held : ends.completionHeld = true
      · simp only [register, held, if_true]
        exact .registered held
      · simp only [register, if_neg held]
        exact .nothing
  | complete outcome =>
      exact @happens_finish ends (.completed outcome) outcome rfl rfl
  | dropCompletion => exact @happens_finish ends .abandoned (.error .vanished) rfl rfl
  | dropHandle => exact .nothing

/-- An outcome stays once it is decided. -/
theorem Happens.outcome_eq {ends : KdfEnds} {event : Option KdfEvent} {job : KdfJob} {held : Bool}
    (happens : ends.Happens event job held) {outcome : KdfOutcome}
    (decided : ends.job.outcome = some outcome) : job.outcome = some outcome := by
  cases happens with
  | nothing => exact decided
  | cancelled => rw [KdfJob.cancel_of_decided decided, decided]
  | registered => rw [KdfJob.outcome_register, decided]
  | finished => simp only [KdfJob.decideOutcome, decided]

theorem eq_of_cancelIf_eq_cancelled {ends : KdfEnds} {held effective : Bool}
    (happened : (ends.cancelIf held).2.map KdfEvent.cancelled = some (.cancelled effective)) :
    (ends.cancelIf held).1 = { ends with job := ends.job.cancel.1 } ∧
      effective = ends.job.cancel.2 := by
  cases held with
  | false => cases happened
  | true =>
      cases happened
      exact ⟨rfl, rfl⟩

/-- A cancellation touches nothing but the job. -/
theorem eq_of_request_eq_cancelled {ends : KdfEnds} {request : Request} {effective : Bool}
    (happened : (ends.request request).2 = some (.cancelled effective)) :
    (ends.request request).1 = { ends with job := ends.job.cancel.1 } ∧
      effective = ends.job.cancel.2 := by
  cases request with
  | cancel => exact eq_of_cancelIf_eq_cancelled happened
  | cancelBy canceler => exact eq_of_cancelIf_eq_cancelled happened
  | _ => simp [KdfEnds.request] at happened

end KdfEnds

/-- The ends of a job after some requests, what has happened to it, and the outcomes that the
waiter has been given. -/
structure KdfCourse where
  ends : KdfEnds
  events : List KdfEvent
  received : List KdfOutcome

namespace KdfCourse

open KdfEnds (Request)

def start : KdfCourse := ⟨.start, [], []⟩

/-- The outcome that a job comes to give its waiter, if it is not the one that it gave before. -/
def delivered (before after : KdfJob) : List KdfOutcome :=
  if after.outcome = before.outcome then [] else after.outcome.toList

def step (course : KdfCourse) (request : Request) : KdfCourse where
  ends := (course.ends.request request).1
  events := course.events ++ (course.ends.request request).2.toList
  received := course.received ++ delivered course.ends.job (course.ends.request request).1.job

def run (requests : List Request) : KdfCourse :=
  requests.foldl step start

def lastTask? (events : List KdfEvent) : Option TaskId :=
  (events.filterMap KdfEvent.task?).getLast?

/-- The courses there are, each with the job that it leads to. -/
inductive IsRegular : KdfCourse → Prop where
  | pending {ends : KdfEnds} {events : List KdfEvent}
      (undecided : ∀ event ∈ events, event.verdict? = none)
      (job : ends.job = ⟨false, none, lastTask? events, []⟩) : IsRegular ⟨ends, events, []⟩
  | cancelled {ends : KdfEnds} {before after : List KdfEvent}
      (undecided : ∀ event ∈ before, event.verdict? = none)
      (lost : ∀ event ∈ after, event.isEffective = false)
      (job : ends.job = ⟨true, some (.error .cancelled), none,
        (lastTask? before).toList ++ after.filterMap KdfEvent.task?⟩) :
      IsRegular ⟨ends, before ++ .cancelled true :: after, [.error .cancelled]⟩
  /-- The completion is gone, so that nothing but cancellations can follow. -/
  | finished {ends : KdfEnds} {before after : List KdfEvent} {first : KdfEvent}
      {outcome : KdfOutcome} (undecided : ∀ event ∈ before, event.verdict? = none)
      (other : first.isCancellation = false) (verdict : first.verdict? = some outcome)
      (lost : ∀ event ∈ after, event = .cancelled false)
      (gone : ends.completionHeld = false)
      (job : ends.job = ⟨!after.isEmpty, some outcome, lastTask? before, []⟩) :
      IsRegular ⟨ends, before ++ first :: after, [outcome]⟩

theorem delivered_of_undecided {before : KdfJob} (undecided : before.outcome = none)
    (after : KdfJob) : delivered before after = after.outcome.toList := by
  rw [delivered, undecided]
  cases after.outcome <;> rfl

theorem lastTask?_append_registered (events : List KdfEvent) (task : TaskId) :
    lastTask? (events ++ [.registered task]) = some task := by
  simp [lastTask?, KdfEvent.task?]

/-- The course in which ends are followed by others. -/
private def next (course : KdfCourse) (event : Option KdfEvent) (ends : KdfEnds) : KdfCourse :=
  ⟨ends, course.events ++ event.toList, course.received ++ delivered course.ends.job ends.job⟩

private theorem isRegular_next_pending {ends later : KdfEnds} {events : List KdfEvent}
    {event : Option KdfEvent} (undecided : ∀ event ∈ events, event.verdict? = none)
    (job : ends.job = ⟨false, none, lastTask? events, []⟩)
    (happens : ends.Happens event later.job later.completionHeld) :
    (next ⟨ends, events, []⟩ event later).IsRegular := by
  generalize changed : later.job = after at happens
  generalize left : later.completionHeld = held at happens
  rw [next, delivered_of_undecided (by rw [job]), changed]
  cases happens with
  | nothing =>
      rw [job] at changed ⊢
      simp only [Option.toList_none, List.append_nil]
      exact .pending undecided changed
  | cancelled =>
      rw [job] at changed ⊢
      exact .cancelled undecided (List.forall_mem_nil _) (by simp [changed, KdfJob.cancel])
  | @registered task =>
      rw [job] at changed ⊢
      refine .pending ?_ (lastTask?_append_registered events task ▸ changed)
      exact List.forall_mem_append.mpr ⟨undecided, List.forall_mem_singleton.mpr rfl⟩
  | finished _ other verdict =>
      rw [job] at changed ⊢
      exact .finished undecided other verdict (List.forall_mem_nil _) left changed

private theorem isRegular_next_cancelled {ends later : KdfEnds} {before after : List KdfEvent}
    {event : Option KdfEvent} (undecided : ∀ event ∈ before, event.verdict? = none)
    (lost : ∀ event ∈ after, event.isEffective = false)
    (job : ends.job = ⟨true, some (.error .cancelled), none,
      (lastTask? before).toList ++ after.filterMap KdfEvent.task?⟩)
    (happens : ends.Happens event later.job later.completionHeld) :
    (next ⟨ends, before ++ .cancelled true :: after, [.error .cancelled]⟩ event
      later).IsRegular := by
  have same : delivered ends.job later.job = [] :=
    if_pos (by rw [job]; exact happens.outcome_eq (by rw [job]))
  simp only [next, same, List.append_nil, List.append_assoc, List.cons_append]
  generalize changed : later.job = final at happens
  generalize later.completionHeld = held at happens
  refine .cancelled undecided ?_ ?_
  · refine List.forall_mem_append.mpr ⟨lost, ?_⟩
    cases happens with
    | nothing => exact List.forall_mem_nil _
    | cancelled =>
        rw [job]
        exact List.forall_mem_singleton.mpr rfl
    | registered => exact List.forall_mem_singleton.mpr rfl
    | finished _ other =>
        exact List.forall_mem_singleton.mpr (KdfEvent.isEffective_of_isCancellation_eq_false other)
  · rw [changed]
    cases happens with
    | nothing => simp [job]
    | cancelled => simp [job, KdfJob.cancel, KdfEvent.task?]
    | registered => simp [job, KdfJob.register, KdfEvent.task?]
    | @finished event _ _ _ verdict =>
        have noTask : event.task? = none := by
          cases event with
          | registered => cases verdict
          | _ => rfl
        simp [job, KdfJob.decideOutcome, noTask]

private theorem isRegular_next_finished {ends later : KdfEnds} {before after : List KdfEvent}
    {first : KdfEvent} {outcome : KdfOutcome} {event : Option KdfEvent}
    (undecided : ∀ event ∈ before, event.verdict? = none)
    (other : first.isCancellation = false) (verdict : first.verdict? = some outcome)
    (lost : ∀ event ∈ after, event = .cancelled false) (gone : ends.completionHeld = false)
    (job : ends.job = ⟨!after.isEmpty, some outcome, lastTask? before, []⟩)
    (happens : ends.Happens event later.job later.completionHeld) :
    (next ⟨ends, before ++ first :: after, [outcome]⟩ event later).IsRegular := by
  have same : delivered ends.job later.job = [] :=
    if_pos (by rw [job]; exact happens.outcome_eq (by rw [job]))
  simp only [next, same, List.append_nil, List.append_assoc, List.cons_append]
  generalize changed : later.job = final at happens
  generalize left : later.completionHeld = held at happens
  cases happens with
  | nothing =>
      rw [job] at changed
      rw [gone] at left
      rw [Option.toList_none, List.append_nil]
      exact .finished undecided other verdict lost left changed
  | cancelled =>
      rw [gone] at left
      have late : ends.job.cancel = (⟨true, some outcome, lastTask? before, []⟩, false) := by
        rw [job]
        cases after <;> rfl
      rw [late] at changed ⊢
      refine .finished undecided other verdict ?_ left (by simp [changed])
      exact List.forall_mem_append.mpr ⟨lost, List.forall_mem_singleton.mpr rfl⟩
  | registered kept => exact absurd (gone.symm.trans kept) Bool.false_ne_true
  | finished kept => exact absurd (gone.symm.trans kept) Bool.false_ne_true

theorem isRegular_step {course : KdfCourse} (regular : course.IsRegular) (request : Request) :
    (course.step request).IsRegular := by
  have happens := course.ends.happens_request request
  cases regular with
  | pending undecided job => exact isRegular_next_pending undecided job happens
  | cancelled undecided lost job => exact isRegular_next_cancelled undecided lost job happens
  | finished undecided other verdict lost gone job =>
      exact isRegular_next_finished undecided other verdict lost gone job happens

theorem isRegular_run (requests : List Request) : (run requests).IsRegular :=
  requests.foldlRecOn step (.pending (List.forall_mem_nil _) rfl) fun _ regular request _ =>
    isRegular_step regular request

end KdfCourse

end SealedCatalog
