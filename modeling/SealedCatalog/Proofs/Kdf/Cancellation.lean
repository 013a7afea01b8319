import SealedCatalog.Proofs.Kdf.Course

/-! What cancellation does. The first cancellation, completion or abandonment of a course decides
what the waiter gets and whether registered tasks are aborted; later ones change only what the
cancelers are told. -/

namespace SealedCatalog.KdfCourse

open KdfEnds (Request)

/-- The event is the first that decides on an outcome. -/
structure Decides (events before : List KdfEvent) (first : KdfEvent) (after : List KdfEvent) :
    Prop where
  split : events = before ++ first :: after
  undecided : ∀ event ∈ before, event.verdict? = none
  decided : first.verdict?.isSome = true

theorem Decides.unique {events before before' after after' : List KdfEvent}
    {first first' : KdfEvent} (left : Decides events before first after)
    (right : Decides events before' first' after') : first = first' ∧ after = after' := by
  rcases left with ⟨rfl, undecided, decided⟩
  rcases right with ⟨same, undecided', decided'⟩
  induction before generalizing before' with
  | nil =>
      cases before' with
      | nil => simpa using same
      | cons head =>
          cases same
          exact absurd decided (by simp [undecided' first])
  | cons head rest induction =>
      have ⟨plain, others⟩ := List.forall_mem_cons.mp undecided
      cases before' with
      | nil =>
          cases same
          exact absurd decided' (by simp [plain])
      | cons head' rest' =>
          have ⟨_, tails⟩ := List.cons.inj same
          exact induction others tails (List.forall_mem_cons.mp undecided').2

theorem any_isCancellation_of_undecided {events : List KdfEvent}
    (undecided : ∀ event ∈ events, event.verdict? = none) :
    events.any KdfEvent.isCancellation = false := by
  refine List.any_eq_false.mpr fun event member => ?_
  rw [KdfEvent.isCancellation_of_verdict?_eq_none (undecided event member)]
  exact Bool.false_ne_true

theorem any_isEffective_of_undecided {events : List KdfEvent}
    (undecided : ∀ event ∈ events, event.verdict? = none) :
    events.any KdfEvent.isEffective = false := by
  refine List.any_eq_false.mpr fun event member => ?_
  rw [KdfEvent.isEffective_of_verdict?_eq_none (undecided event member)]
  exact Bool.false_ne_true

theorem isEffective_eq_false_of_finished {before after : List KdfEvent} {first : KdfEvent}
    (undecided : ∀ event ∈ before, event.verdict? = none) (other : first.isCancellation = false)
    (lost : ∀ event ∈ after, event = .cancelled false) :
    ∀ event ∈ before ++ first :: after, event.isEffective = false := by
  refine List.forall_mem_append.mpr ⟨fun event member =>
    KdfEvent.isEffective_of_verdict?_eq_none (undecided event member), ?_⟩
  refine List.forall_mem_cons.mpr ⟨KdfEvent.isEffective_of_isCancellation_eq_false other, ?_⟩
  intro event member
  rw [lost event member]
  rfl

theorem any_isCancellation_of_finished {before after : List KdfEvent} {first : KdfEvent}
    (undecided : ∀ event ∈ before, event.verdict? = none) (other : first.isCancellation = false) :
    (before ++ first :: after).any KdfEvent.isCancellation =
      after.any KdfEvent.isCancellation := by
  rw [List.any_append, any_isCancellation_of_undecided undecided, List.any_cons, other,
    Bool.false_or, Bool.false_or]

theorem any_isCancellation_of_lost {events : List KdfEvent}
    (lost : ∀ event ∈ events, event = .cancelled false) :
    events.any KdfEvent.isCancellation = !events.isEmpty := by
  cases events with
  | nil => rfl
  | cons head rest => rw [lost head List.mem_cons_self]; rfl

theorem IsRegular.outcome_eq {course : KdfCourse} (regular : course.IsRegular) :
    course.ends.job.outcome = course.received.head? := by
  cases regular with
  | pending _ job => rw [job]; rfl
  | cancelled _ _ job => rw [job]; rfl
  | finished _ _ _ _ _ job => rw [job]; rfl

/-- The waiter is given nothing before the first event that decides, and then the outcome of that
event and no other. If it is a cancellation, it is the one that is told to have had an effect, and
the task that was registered last is aborted and so are all that come later. Otherwise no
cancellation has an effect, and no task is aborted. -/
theorem first_event_decides (requests : List Request) :
    let course := run requests
    (course.ends.handleHeld = true → course.ends.wait.2 = course.received.head?) ∧
      ((∀ event ∈ course.events, event.verdict? = none) ∧ course.received = [] ∧
          course.ends.job.aborted = [] ∨
        ∃ before first after outcome, Decides course.events before first after ∧
          first.verdict? = some outcome ∧ course.received = [outcome] ∧
          (first = .cancelled true ∧ course.events.countP KdfEvent.isEffective = 1 ∧
              course.ends.job.aborted =
                (lastTask? before).toList ++ after.filterMap KdfEvent.task? ∨
            first.isCancellation = false ∧ course.events.countP KdfEvent.isEffective = 0 ∧
              course.ends.job.aborted = [])) := by
  intro course
  have regular : course.IsRegular := isRegular_run requests
  refine ⟨fun held => ?_, ?_⟩
  · rw [← regular.outcome_eq, KdfEnds.wait, if_pos held]
  clear_value course
  cases regular with
  | pending undecided job => exact .inl ⟨undecided, rfl, by rw [job]⟩
  | @cancelled ends before after undecided lost job =>
      have early : before.countP KdfEvent.isEffective = 0 := List.countP_eq_zero.mpr
        fun event member => by simp [KdfEvent.isEffective_of_verdict?_eq_none (undecided _ member)]
      have late : after.countP KdfEvent.isEffective = 0 := List.countP_eq_zero.mpr
        fun event member => by simp [lost event member]
      refine .inr ⟨before, .cancelled true, after, .error .cancelled, ⟨rfl, undecided, rfl⟩, rfl,
        rfl, .inl ⟨rfl, ?_, by rw [job]⟩⟩
      rw [List.countP_append, early, List.countP_cons, late]
      rfl
  | @finished ends before after first outcome undecided other verdict lost gone job =>
      refine .inr ⟨before, first, after, outcome, ⟨rfl, undecided, by rw [verdict]; rfl⟩, verdict,
        rfl, .inr ⟨other, List.countP_eq_zero.mpr fun event member => ?_, by rw [job]⟩⟩
      rw [isEffective_eq_false_of_finished undecided other lost event member]
      exact Bool.false_ne_true

theorem IsRegular.cancelRequested_eq {course : KdfCourse} (regular : course.IsRegular) :
    course.ends.job.cancelRequested = course.events.any KdfEvent.isCancellation := by
  cases regular with
  | pending undecided job => rw [job, any_isCancellation_of_undecided undecided]
  | cancelled undecided lost job => simp [job, KdfEvent.isCancellation]
  | finished undecided other verdict lost gone job =>
      rw [job, any_isCancellation_of_finished undecided other, any_isCancellation_of_lost lost]

/-- While the completion is held, no cancellation has come too late. -/
theorem IsRegular.any_isEffective_eq {course : KdfCourse} (regular : course.IsRegular)
    (held : course.ends.completionHeld = true) :
    course.events.any KdfEvent.isEffective = course.ends.job.cancelRequested := by
  cases regular with
  | pending undecided job => rw [job, any_isEffective_of_undecided undecided]
  | cancelled undecided lost job => simp [job, KdfEvent.isEffective]
  | finished undecided other verdict lost gone job =>
      exact absurd (gone.symm.trans held) Bool.false_ne_true

/-- Some cancellation has an effect, unless there is none or the first comes too late. -/
theorem IsRegular.any_eq_any_iff {course : KdfCourse} (regular : course.IsRegular) :
    course.events.any KdfEvent.isCancellation = course.events.any KdfEvent.isEffective ↔
      ∀ before first after, Decides course.events before first after →
        first.isCancellation = false → after.any KdfEvent.isCancellation = false := by
  cases regular with
  | @pending ends events undecided job =>
      refine iff_of_true ?_ fun before first after decides _ => ?_
      · rw [any_isCancellation_of_undecided undecided, any_isEffective_of_undecided undecided]
      · have split : events = before ++ first :: after := decides.split
        have plain : first.verdict? = none := undecided first (by simp [split])
        exact absurd decides.decided (by simp [plain])
  | @cancelled ends before after undecided lost job =>
      have split : Decides (before ++ .cancelled true :: after) before (.cancelled true) after :=
        ⟨rfl, undecided, rfl⟩
      refine iff_of_true (by simp [KdfEvent.isCancellation, KdfEvent.isEffective]) ?_
      intro _ first _ decides other
      rw [(decides.unique split).1] at other
      cases other
  | @finished ends before after first outcome undecided other verdict lost gone job =>
      have split : Decides (before ++ first :: after) before first after :=
        ⟨rfl, undecided, by rw [verdict]; rfl⟩
      have ineffective : (before ++ first :: after).any KdfEvent.isEffective = false :=
        List.any_eq_false.mpr fun event member => by
          simp [isEffective_eq_false_of_finished undecided other lost event member]
      rw [any_isCancellation_of_finished undecided other, ineffective]
      constructor
      · intro quiet _ _ _ decides _
        rw [(decides.unique split).2, quiet]
      · exact fun quiet => quiet before first after split other

/-- What the ends are told of cancellation: the completion, whether some cancellation had an
effect; the cancelers, whether there was any. The two differ exactly where the job was finished
before the first cancellation. A cancellation after the outcome is decided changes nothing but what
the cancelers are told. -/
theorem told_cancelled (requests : List Request) :
    let course := run requests
    (∀ told, course.ends.completionTold? = some told →
        told = course.events.any KdfEvent.isEffective) ∧
      course.ends.cancelersTold =
        List.replicate course.ends.cancelers (course.events.any KdfEvent.isCancellation) ∧
      (course.events.any KdfEvent.isCancellation = course.events.any KdfEvent.isEffective ↔
        ∀ before first after, Decides course.events before first after →
          first.isCancellation = false → after.any KdfEvent.isCancellation = false) ∧
      ∀ request effective, (course.ends.request request).2 = some (.cancelled effective) →
        course.received ≠ [] → effective = false ∧ (course.ends.request request).1 =
          { course.ends with job := { course.ends.job with cancelRequested := true } } := by
  intro course
  have regular : course.IsRegular := isRegular_run requests
  refine ⟨fun told same => ?_, ?_, regular.any_eq_any_iff, ?_⟩
  · cases held : course.ends.completionHeld with
    | false => simp [KdfEnds.completionTold?, held] at same
    | true =>
        rw [regular.any_isEffective_eq held]
        simpa [KdfEnds.completionTold?, held] using same.symm
  · rw [KdfEnds.cancelersTold, regular.cancelRequested_eq]
  · intro request effective happened given
    rcases KdfEnds.eq_of_request_eq_cancelled happened with ⟨changed, same⟩
    rcases List.exists_cons_of_ne_nil given with ⟨outcome, others, received⟩
    have decided : course.ends.job.outcome = some outcome := by
      rw [regular.outcome_eq, received]
      rfl
    rw [KdfJob.cancel_of_decided decided] at changed same
    exact ⟨same, changed⟩

/-- A job that is completed and then cancelled: the canceler is told that it was cancelled, though
no cancellation had an effect. -/
theorem told_cancelled_after_completion :
    ¬ ∀ told ∈ (run [.addCanceler, .complete (.ok [0]), .cancelBy 0]).ends.cancelersTold,
      told = (run [.addCanceler, .complete (.ok [0]), .cancelBy 0]).events.any
        KdfEvent.isEffective := by
  decide

end SealedCatalog.KdfCourse
