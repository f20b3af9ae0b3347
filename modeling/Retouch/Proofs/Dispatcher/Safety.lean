import Retouch.Proofs.Dispatcher.Interleaving

/-!
# Safety of the dispatcher

Whatever the order of submissions and of the steps of the workers, and whatever fails on the way:
one job at a time is in the hands of a worker, and jobs are begun once and in the order in which
they were accepted. An accepted job is begun sooner or later unless a later one takes its place
while it waits, with one exception: the job that waits when a worker falls is lost. As long as every
failure tells its message no worker falls, and then the last accepted job has been executed whenever
the dispatcher is at rest.
-/

namespace Retouch.Dispatcher

variable {Job : Type}

def Event.accepted? : Event Job → Option Job
  | .admitted job => some job
  | .queued job => some job
  | _ => none

def Event.started? : Event Job → Option Job
  | .started job => some job
  | _ => none

def Event.lost? : Event Job → Option Job
  | .fell lost => lost
  | _ => none

def accepted (trace : List (Event Job)) : List Job :=
  trace.filterMap Event.accepted?

/-- The jobs that were executed, in the order in which they were begun. -/
def executed (trace : List (Event Job)) : List Job :=
  trace.filterMap Event.started?

/-- The jobs that waited when a worker fell. -/
def lost (trace : List (Event Job)) : List Job :=
  trace.filterMap Event.lost?

/-- Whether a job that waits is replaced: another one is accepted before a worker takes the waiting
job or falls. -/
def isReplaced : List (Event Job) → Bool
  | [] => false
  | .took _ :: _ => false
  | .fell _ :: _ => false
  | event :: later => event.accepted?.isSome || isReplaced later

/-- The accepted jobs that are not replaced while they wait, in order. -/
def kept : List (Event Job) → List Job
  | [] => []
  | .admitted job :: later => job :: kept later
  | .queued job :: later => if isReplaced later then kept later else job :: kept later
  | _ :: later => kept later

theorem accepted_cons (event : Event Job) (later : List (Event Job)) :
    accepted (event :: later) = event.accepted?.toList ++ accepted later := by
  cases event <;> rfl

theorem executed_cons (event : Event Job) (later : List (Event Job)) :
    executed (event :: later) = event.started?.toList ++ executed later := by
  cases event <;> rfl

theorem lost_cons (event : Event Job) (later : List (Event Job)) :
    lost (event :: later) = event.lost?.toList ++ lost later := by
  cases event with
  | fell lost => cases lost <;> rfl
  | _ => rfl

theorem kept_sublist (trace : List (Event Job)) : (kept trace).Sublist (accepted trace) := by
  induction trace with
  | nil => exact .refl _
  | cons event later ih =>
      cases event with
      | admitted job => exact .cons_cons job ih
      | queued job =>
          rw [kept]
          split
          · exact .cons job ih
          · exact .cons_cons job ih
      | _ => exact ih

namespace Workshop

variable {workshop after : Workshop Job} {events later : List (Event Job)} {left : List Job}

/-- The jobs that a worker has in its hands and has not begun. -/
def ready (workshop : Workshop Job) : List Job :=
  (workshop.workers.filter (·.phase = .ready)).map Worker.job

/-- The jobs that are in hand or wait but have not been begun. -/
def due (workshop : Workshop Job) : List Job :=
  workshop.ready ++ workshop.dispatcher.waiting.toList

/-- The waiting job, unless it is replaced in what follows. -/
def spared (workshop : Workshop Job) (later : List (Event Job)) : List Job :=
  if isReplaced later then [] else workshop.dispatcher.waiting.toList

/-! ## What a move does to the jobs -/

/-- A move keeps account of the jobs: whatever is still due after a run that begins with the move,
the jobs executed or lost in the run and those that are still due are the ones in hand, the waiting
one and those accepted in it, unless replaced. -/
theorem Move.accounts (move : workshop.Move events after)
    (accounted : (executed later ++ lost later ++ left).Perm
      (after.ready ++ after.spared later ++ kept later)) :
    (executed (events ++ later) ++ lost (events ++ later) ++ left).Perm
      (workshop.ready ++ workshop.spared (events ++ later) ++ kept (events ++ later)) := by
  cases move with
  | stay => exact accounted
  | accept job error =>
      simpa [executed_cons, lost_cons, Event.started?, Event.lost?, ready, spared, kept]
        using accounted
  | queue new job phase waiting error =>
      cases replaced : isReplaced later <;>
        simpa [executed_cons, lost_cons, Event.started?, Event.lost?, Event.accepted?, ready,
          spared, kept, isReplaced, replaced] using accounted
  | drop new job phase waiting error =>
      simpa [executed_cons, lost_cons, Event.started?, Event.lost?, Event.accepted?, spared, kept,
        isReplaced] using accounted
  | start job waiting error =>
      simpa [executed_cons, lost_cons, Event.started?, Event.lost?, Event.accepted?, ready, spared,
        kept, isReplaced] using accounted
  | proceed job waiting error after begun goesOn =>
      simpa [ready, spared, begun, goesOn] using accounted
  | next job waiting error =>
      simpa [executed_cons, lost_cons, Event.started?, Event.lost?, ready, spared, kept, isReplaced]
        using accounted
  | rest job error =>
      simpa [executed_cons, lost_cons, Event.started?, Event.lost?, ready, spared, kept, isReplaced]
        using accounted
  | fall job waiting error =>
      have remaining : (executed later ++ (lost later ++ left)).Perm (kept later) := by
        simpa [ready, spared] using accounted
      have both := (List.perm_append_comm_assoc (executed later) waiting.toList
        (lost later ++ left)).trans (remaining.append_left waiting.toList)
      simpa [executed_cons, lost_cons, Event.started?, Event.lost?, ready, spared, kept, isReplaced]
        using both

/-- A move keeps the order of the jobs. -/
theorem Move.ordered (move : workshop.Move events after)
    (ordered : (executed later ++ left).Sublist
      (after.ready ++ after.spared later ++ kept later)) :
    (executed (events ++ later) ++ left).Sublist
      (workshop.ready ++ workshop.spared (events ++ later) ++ kept (events ++ later)) := by
  cases move with
  | stay => exact ordered
  | accept job error =>
      simpa [executed_cons, Event.started?, ready, spared, kept] using ordered
  | queue new job phase waiting error =>
      cases replaced : isReplaced later <;>
        simpa [executed_cons, Event.started?, Event.accepted?, ready, spared, kept, isReplaced,
          replaced] using ordered
  | drop new job phase waiting error =>
      simpa [executed_cons, Event.started?, Event.accepted?, spared, kept, isReplaced] using ordered
  | start job waiting error =>
      simpa [executed_cons, Event.started?, Event.accepted?, ready, spared, kept, isReplaced]
        using ordered
  | proceed job waiting error after begun goesOn =>
      simpa [ready, spared, begun, goesOn] using ordered
  | next job waiting error =>
      simpa [executed_cons, Event.started?, ready, spared, kept, isReplaced] using ordered
  | rest job error =>
      simpa [executed_cons, Event.started?, ready, spared, kept, isReplaced] using ordered
  | fall job waiting error =>
      have remaining : (executed later ++ left).Sublist (kept later) := by
        simpa [ready, spared] using ordered
      have behind := remaining.trans (List.sublist_append_right waiting.toList _)
      simpa [executed_cons, Event.started?, ready, spared, kept, isReplaced] using behind

/-- Whether a job was accepted after each loss. -/
def Recovers (trace : List (Event Job)) : Prop :=
  ∀ front job back, trace = front ++ .fell (some job) :: back → accepted back ≠ []

theorem Recovers.of_append {front : List (Event Job)} (recovers : Recovers (front ++ later)) :
    Recovers later := by
  rintro before job back rfl
  exact recovers (front ++ before) job back (by simp)

/-- A move hands on which job is the last one, if none is lost for good. -/
theorem Move.getLast? (move : workshop.Move events after) (recovers : Recovers (events ++ later))
    (last : (executed later ++ left).getLast? = (after.due ++ accepted later).getLast?) :
    (executed (events ++ later) ++ left).getLast? =
      (workshop.due ++ accepted (events ++ later)).getLast? := by
  cases move with
  | stay => exact last
  | accept job error =>
      simpa [executed_cons, accepted_cons, Event.started?, Event.accepted?, due, ready] using last
  | queue new job phase waiting error =>
      simpa [executed_cons, accepted_cons, Event.started?, Event.accepted?, due, ready,
        List.getLast?_cons] using last
  | drop new job phase waiting error =>
      simpa [executed_cons, accepted_cons, Event.started?, Event.accepted?, due] using last
  | start job waiting error =>
      have same : (executed later ++ left).getLast? =
          (waiting.toList ++ accepted later).getLast? := by
        simpa [due, ready] using last
      change (job :: (executed later ++ left)).getLast? =
        (job :: (waiting.toList ++ accepted later)).getLast?
      rw [List.getLast?_cons, List.getLast?_cons, same]
  | proceed job waiting error after begun goesOn =>
      simpa [due, ready, begun, goesOn] using last
  | next job waiting error =>
      simpa [executed_cons, accepted_cons, Event.started?, Event.accepted?, due, ready] using last
  | rest job error =>
      simpa [executed_cons, accepted_cons, Event.started?, Event.accepted?, due, ready] using last
  | fall job waiting error =>
      have same : (executed later ++ left).getLast? = (accepted later).getLast? := by
        simpa [due, ready] using last
      cases waiting with
      | none =>
          simpa [executed_cons, accepted_cons, Event.started?, Event.accepted?, due, ready]
            using same
      | some waiting =>
          -- The waiting job is lost, but another one was accepted afterwards.
          rcases List.exists_cons_of_ne_nil (recovers [] waiting later rfl) with
            ⟨job, jobs, more⟩
          rw [more] at same
          simpa [executed_cons, accepted_cons, Event.started?, Event.accepted?, due, ready, more,
            List.getLast?_cons_cons] using same

/-! ## Runs -/

/-- Every run of a sound workshop ends soundly and keeps account and order of the jobs. -/
theorem run_accounts (audience : Audience) (sound : workshop.IsSound)
    (actions : List (Action Job)) :
    let ended := workshop.run audience actions
    ended.2.IsSound ∧
      (executed ended.1 ++ lost ended.1 ++ ended.2.due).Perm
        (workshop.ready ++ workshop.spared ended.1 ++ kept ended.1) ∧
      (executed ended.1 ++ ended.2.due).Sublist
        (workshop.ready ++ workshop.spared ended.1 ++ kept ended.1) := by
  -- The last step first: what is due after a run decides what the steps before it account for.
  induction actions generalizing workshop with
  | nil =>
      refine ⟨sound, ?_, ?_⟩ <;> simp [run, executed, lost, due, spared, kept, isReplaced]
  | cons action actions ih =>
      have move := step_move audience sound action
      rcases ih (move.isSound sound) with ⟨soundAfter, accounted, ordered⟩
      exact ⟨soundAfter, move.accounts accounted, move.ordered ordered⟩

theorem getLast?_run (audience : Audience) (sound : workshop.IsSound) (actions : List (Action Job))
    (recovers : Recovers (workshop.run audience actions).1) :
    (executed (workshop.run audience actions).1 ++
        (workshop.run audience actions).2.due).getLast? =
      (workshop.due ++ accepted (workshop.run audience actions).1).getLast? := by
  induction actions generalizing workshop with
  | nil => simp [run, executed, accepted]
  | cons action actions ih =>
      have move := step_move audience sound action
      exact move.getLast? recovers (ih (move.isSound sound) recovers.of_append)

end Workshop

/-! ## Failures that tell their message -/

def Action.IsTold : Action Job → Prop
  | .work _ (some problem) => problem.IsTold
  | _ => True

theorem Phase.exists_report (phase : Phase) {problem : JobProblem} (told : problem.IsTold) :
    ∃ error, phase.report problem = .ok error := by
  cases phase with
  | executing =>
      rcases told.exists_error with ⟨error, -, reported, -⟩
      exact ⟨error, reported⟩
  | _ => exact told.exists_rewrapped

theorem Phase.next_ne_falling (audience : Audience) {phase : Phase} {failure : Option JobProblem}
    (stands : phase ≠ .falling) (told : ∀ problem, failure = some problem → problem.IsTold) :
    (phase.next audience failure).2 ≠ .falling := by
  have afterError : audience.afterError ≠ .falling := by
    rcases audience.afterError_cases with same | same <;> simp [same]
  have afterResult : audience.afterResult ≠ .falling := by
    rcases audience.afterResult_cases with same | same <;> simp [same]
  cases failure with
  | none => cases phase <;> simp_all [next]
  | some problem =>
      rcases phase.exists_report (told problem rfl) with ⟨error, reported⟩
      cases phase <;> simp_all [next]

namespace Workshop

variable {workshop : Workshop Job}

def Stands (workshop : Workshop Job) : Prop :=
  ∀ worker ∈ workshop.workers, worker.phase ≠ .falling

/-- If every failure tells its message, no worker falls and no job is lost. -/
theorem lost_step (audience : Audience) (sound : workshop.IsSound) (stands : workshop.Stands)
    {action : Action Job} (told : action.IsTold) :
    lost (workshop.step audience action).1 = [] ∧
      (workshop.step audience action).2.Stands := by
  cases action with
  | submit submission =>
      cases sound with
      | idle error => simp [step, submit, Dispatcher.submit, isBusy, lost, Event.lost?, Stands]
      | busy job phase waiting error =>
          cases waits : submission.waits <;>
            simpa [step, submit, Dispatcher.submit, isBusy, waits, lost, Event.lost?, Stands]
              using stands
  | work position failure =>
      cases sound with
      | idle error => simp [step, work, lost, Stands]
      | busy job phase waiting error =>
          have upright : phase ≠ .falling := stands ⟨job, phase⟩ (by simp)
          rcases position with _ | position
          · have goesOn : (phase.next audience failure).2 ≠ .falling := by
              refine Phase.next_ne_falling audience upright ?_
              rintro problem rfl
              exact told
            cases phase with
            | ended => cases waiting <;> simp [step, work, take, lost, Event.lost?, Stands]
            | falling => exact absurd rfl upright
            | _ => simpa [step, work, lost, Event.lost?, Stands] using goesOn
          · simpa [step, work, lost, Stands] using upright

theorem lost_run (audience : Audience) (sound : workshop.IsSound) (stands : workshop.Stands)
    {actions : List (Action Job)} (told : ∀ action ∈ actions, action.IsTold) :
    lost (workshop.run audience actions).1 = [] := by
  induction actions generalizing workshop with
  | nil => rfl
  | cons action actions ih =>
      rcases lost_step audience sound stands (told action (by simp)) with ⟨none, standsAfter⟩
      have later := ih ((step_move audience sound action).isSound sound) standsAfter
        fun other member => told other (by simp [member])
      rw [lost] at none later ⊢
      rw [run, List.filterMap_append, none, later, List.append_nil]

end Workshop

/-! ## Failures that do not -/

/-- Whether a worker is in a function of the user. -/
def Phase.IsCalling (phase : Phase) : Prop :=
  phase = .executing ∨ phase = .tellingResult ∨ phase = .tellingError

namespace Workshop

/-- A worker whose failure cannot be reported falls, and the waiting job with it. -/
theorem run_falls (audience : Audience) (dispatcher : Dispatcher Job) (job : Job) {phase : Phase}
    (calling : phase.IsCalling) {problem : JobProblem} {asking : Failure}
    (untold : phase.report problem = .error asking) (failure : Option JobProblem) :
    run audience ⟨dispatcher, [⟨job, phase⟩]⟩ [.work 0 (some problem), .work 0 failure] =
      ([.fell dispatcher.waiting], ⟨dispatcher.abandon, []⟩) := by
  rcases calling with rfl | rfl | rfl <;>
    simp [run, step, work, fall, Phase.next, untold, abandon]

end Workshop

/-! ## Safety -/

/-- What holds of every workshop that a dispatcher at rest can get to, with the trace that led
there. -/
structure IsSafe (audience : Audience) (trace : List (Event Job)) (workshop : Workshop Job) :
    Prop where
  /-- One job at most is in the hands of a worker. -/
  single : workshop.workers.length ≤ 1
  /-- The dispatcher counts as running exactly while a worker has a job. -/
  busy : workshop.dispatcher.isBusy ↔ workshop.workers ≠ []
  /-- A job waits only while a worker has another one. -/
  waiting : workshop.dispatcher.waiting ≠ none → workshop.workers ≠ []
  /-- Every accepted job is executed once at most, and in order. -/
  ordered : (executed trace).Sublist (accepted trace)
  /-- A submission is refused exactly if the dispatcher is busy and the job is not to wait. -/
  refuses : ∀ submission, (workshop.dispatcher.submit submission).1 = false ↔
    workshop.dispatcher.isBusy ∧ submission.waits = false
  /-- A refused submission changes nothing. -/
  keeps : ∀ submission, (workshop.dispatcher.submit submission).1 = false →
    workshop.submit submission = ([.dropped submission.job], workshop)
  /-- The accepted jobs that are not replaced while they wait are executed, lost, in hand or
  waiting, each once. -/
  accounted : (executed trace ++ lost trace ++ workshop.due).Perm (kept trace)
  /-- They are executed, in hand and waiting in order if none is lost, and only then. -/
  whole : executed trace ++ workshop.due = kept trace ↔ lost trace = []
  /-- A worker in a function of the user whose failure cannot be reported falls. Nothing is
  reported, the waiting job is lost, and the dispatcher is at rest. -/
  falls : ∀ job phase problem asking failure, workshop.workers = [⟨job, phase⟩] →
    phase.IsCalling → phase.report problem = .error asking →
      workshop.run audience [.work 0 (some problem), .work 0 failure] =
        ([.fell workshop.dispatcher.waiting], ⟨workshop.dispatcher.abandon, []⟩)
  /-- At rest no job waits. All jobs that were not replaced have been executed exactly if none was
  lost, and the last one if none was accepted in vain since. -/
  atRest : workshop.dispatcher.isBusy = false →
    workshop.dispatcher.waiting = none ∧ (executed trace = kept trace ↔ lost trace = []) ∧
      (Workshop.Recovers trace → (executed trace).getLast? = (accepted trace).getLast?)

namespace Workshop

theorem IsSound.isSafe {audience : Audience} {trace : List (Event Job)} {workshop : Workshop Job}
    (sound : workshop.IsSound)
    (accounted : (executed trace ++ lost trace ++ workshop.due).Perm (kept trace))
    (inOrder : (executed trace ++ workshop.due).Sublist (kept trace))
    (last : Recovers trace →
      (executed trace ++ workshop.due).getLast? = (accepted trace).getLast?) :
    IsSafe audience trace workshop := by
  have ordered : (executed trace).Sublist (accepted trace) :=
    ((List.sublist_append_left _ _).trans inOrder).trans (kept_sublist trace)
  have whole : executed trace ++ workshop.due = kept trace ↔ lost trace = [] := by
    have count := accounted.length_eq
    simp only [List.length_append] at count
    constructor
    · intro same
      have sameLength := congrArg List.length same
      rw [List.length_append] at sameLength
      exact List.length_eq_zero_iff.mp (by omega)
    · intro none
      refine inOrder.eq_of_length ?_
      rw [none, List.length_nil] at count
      rw [List.length_append]
      omega
  cases sound with
  | idle error =>
      have nothingDue : (⟨⟨none, none, error⟩, []⟩ : Workshop Job).due = [] := rfl
      rw [nothingDue, List.append_nil] at whole last
      exact {
        single := by simp
        busy := by simp [isBusy]
        waiting := by simp
        ordered
        refuses := by simp [Dispatcher.submit, isBusy]
        keeps := by simp [Dispatcher.submit]
        accounted
        whole := by rw [nothingDue, List.append_nil, whole]
        falls := by simp
        atRest := fun _ => ⟨rfl, whole, last⟩ }
  | busy job phase waiting error =>
      exact {
        single := by simp
        busy := by simp [isBusy]
        waiting := by simp
        ordered
        refuses := by
          intro submission
          cases waits : submission.waits <;> simp [Dispatcher.submit, isBusy, waits]
        keeps := by
          intro submission refused
          cases waits : submission.waits <;> simp_all [Dispatcher.submit, submit]
        accounted
        whole
        falls := by
          rintro other current problem asking failure same calling untold
          obtain ⟨rfl, rfl⟩ : job = other ∧ phase = current := by simpa using same
          exact run_falls audience _ job calling untold failure
        atRest := by simp [isBusy] }

/-- Whatever order submissions and the steps of workers come in, and whatever fails: the dispatcher
is safe, but for the job that waits when a failure cannot be reported. If every failure tells its
message no job is lost, and at rest all jobs that were not replaced have been executed. -/
theorem run_isSafe (audience : Audience) (actions : List (Action Job)) :
    let ended := ({} : Workshop Job).run audience actions
    IsSafe audience ended.1 ended.2 ∧
      ((∀ action ∈ actions, action.IsTold) → lost ended.1 = [] ∧
        (ended.2.dispatcher.isBusy = false → executed ended.1 = kept ended.1 ∧
          (executed ended.1).getLast? = (accepted ended.1).getLast?)) := by
  intro ended
  rcases run_accounts audience (.idle none) actions with ⟨sound, accounted, inOrder⟩
  have safe : IsSafe audience ended.1 ended.2 := by
    refine sound.isSafe ?_ ?_ ?_
    · simpa [ready, spared] using accounted
    · simpa [ready, spared] using inOrder
    · intro recovers
      simpa [due, ready] using getLast?_run audience (.idle none) actions recovers
  refine ⟨safe, fun told => ?_⟩
  have none : lost ended.1 = [] := lost_run audience (.idle none) (by simp [Stands]) told
  have recovers : Recovers ended.1 := by
    intro front job back parts
    simp [parts, lost, Event.lost?] at none
  refine ⟨none, fun rests => ?_⟩
  rcases safe.atRest rests with ⟨-, whole, last⟩
  exact ⟨whole.mpr none, last recovers⟩

/-- Of the jobs 2 and 3 that are submitted while 1 is in hand, the later one is executed. -/
example : executed (({} : Workshop Nat).run ⟨true, true⟩
    ([.submit ⟨1, true⟩, .submit ⟨2, true⟩, .submit ⟨3, true⟩] ++
      List.replicate 10 (.work 0 none))).1 = [1, 3] := by
  decide

/-- If the job 1 fails and does not tell why, the job 2 that waits for it is lost: the dispatcher is
at rest and has not executed the last job that it accepted. -/
theorem executed_run_silent :
    let silent : JobProblem := .other (.untold "RuntimeError" (.told "ValueError" "no text"))
    let ended := ({} : Workshop Nat).run ⟨true, true⟩
      [.submit ⟨1, true⟩, .submit ⟨2, true⟩, .work 0 none, .work 0 (some silent),
        .work 0 none]
    ended.2.dispatcher.isBusy = false ∧ kept ended.1 = [1, 2] ∧ executed ended.1 = [1] ∧
      ended.2.dispatcher.lastError = none := by
  decide

end Workshop

/-! ## Coming to rest -/

/-- How many steps a worker in a phase has to do at most until it has taken the waiting job. -/
def Phase.stepsLeft : Phase → Nat
  | .ready => 5
  | .executing => 4
  | .tellingResult => 3
  | .tellingError => 2
  | .ended => 1
  | .falling => 1

theorem Phase.stepsLeft_next (audience : Audience) {phase : Phase} (goesOn : phase ≠ .ended)
    (stands : phase ≠ .falling) (failure : Option JobProblem) :
    (phase.next audience failure).2.stepsLeft < phase.stepsLeft := by
  have afterError : audience.afterError.stepsLeft ≤ 2 := by
    rcases audience.afterError_cases with same | same <;> simp [same, stepsLeft]
  have afterResult : audience.afterResult.stepsLeft ≤ 3 := by
    rcases audience.afterResult_cases with same | same <;> simp [same, stepsLeft]
  unfold next
  rcases failure.map phase.report with _ | asking | error <;>
    cases phase <;> simp_all [stepsLeft] <;> omega

namespace Workshop

/-- How many steps of workers lead to rest at most, if nobody submits a job. -/
def stepsLeft (workshop : Workshop Job) : Nat :=
  workshop.workers.foldr (fun worker steps => worker.phase.stepsLeft + steps)
    (5 * workshop.dispatcher.waiting.toList.length)

theorem stepsLeft_work (audience : Audience) {workshop : Workshop Job} (sound : workshop.IsSound)
    (failure : Option JobProblem) :
    (workshop.work audience 0 failure).2.stepsLeft ≤ workshop.stepsLeft - 1 := by
  cases sound with
  | idle error => simp [work, stepsLeft]
  | busy job phase waiting error =>
      by_cases ended : phase = .ended
      · subst ended
        cases waiting <;> simp [work, take, stepsLeft, advance, Phase.stepsLeft]
      · by_cases falling : phase = .falling
        · subst falling
          simp [work, fall, stepsLeft, abandon]
        · have lower := Phase.stepsLeft_next audience ended falling failure
          cases phase <;> simp_all [work, stepsLeft] <;> omega

/-- A dispatcher to which nobody submits a job comes to rest: a job takes five steps of its worker
at most, whatever fails, and one job at most waits. -/
theorem isBusy_run_work (audience : Audience) {workshop : Workshop Job} (sound : workshop.IsSound)
    (failures : List (Option JobProblem)) (enough : workshop.stepsLeft ≤ failures.length) :
    (workshop.run audience (failures.map (.work 0))).2.dispatcher.isBusy = false := by
  induction failures generalizing workshop with
  | nil =>
      cases sound with
      | idle error => rfl
      | busy job phase waiting error =>
          cases phase <;> simp [stepsLeft, Phase.stepsLeft] at enough
  | cons failure failures ih =>
      have lower := stepsLeft_work audience sound failure
      rw [List.length_cons] at enough
      have enoughAfter : (workshop.work audience 0 failure).2.stepsLeft ≤ failures.length := by
        omega
      exact ih ((work_move audience sound 0 failure).isSound sound) enoughAfter

end Workshop

end Retouch.Dispatcher
