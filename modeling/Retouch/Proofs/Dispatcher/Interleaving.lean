import Retouch.Dispatcher

/-!
# Interleavings of a dispatcher

What a dispatcher does under its lock is one step: a submission, and the moment in which a worker
takes the waiting job. In between a worker goes on by itself. It begins the job in its hands, and
then one function of the user at a time, the job itself or a listener, returns or fails. A
submission may come between any two steps, also from within a function of the user.

A failure is reported as an engine error with the message of the failure, and asking for the message
may be a failure in turn. Nobody catches that one: the worker falls, and in a last step under the
lock it takes the waiting job with it.
-/

namespace Retouch

namespace Dispatcher

variable {Job : Type}

/-- What a worker does with the job in its hands. -/
inductive Phase where
  | ready
  | executing
  | tellingResult
  | tellingError
  /-- It is done with it and takes the waiting job next. -/
  | ended
  /-- A failure that nobody catches ends it next. -/
  | falling
  deriving DecidableEq

/-- A worker with the job in its hands. -/
structure Worker (Job : Type) where
  job : Job
  phase : Phase := .ready

/-- Which listeners there are. -/
structure Audience where
  hearsResults : Bool
  hearsErrors : Bool

def Audience.afterError (audience : Audience) : Phase :=
  if audience.hearsErrors then .tellingError else .ended

def Audience.afterResult (audience : Audience) : Phase :=
  if audience.hearsResults then .tellingResult else .ended

/-- The error as which a problem is reported of the function of the user that a worker is in. -/
def Phase.report : Phase → JobProblem → Except Failure EngineError
  | .executing, problem => problem.error
  | _, problem => problem.rewrapped

/-- What a worker does by itself, if the function of the user that it is in fails or not: the error
that it reports, and its next phase. -/
def Phase.next (audience : Audience) (phase : Phase) (failure : Option JobProblem) :
    Option EngineError × Phase :=
  match phase, failure.map phase.report with
  | .ready, _ => (none, .executing)
  | .ended, _ => (none, .ended)
  | .falling, _ => (none, .falling)
  | _, some (.error _) => (none, .falling)
  | .executing, none => (none, audience.afterResult)
  | .executing, some (.ok error) => (some error, audience.afterError)
  | .tellingResult, none => (none, .ended)
  | .tellingResult, some (.ok error) => (some error, audience.afterError)
  | .tellingError, none => (none, .ended)
  | .tellingError, some (.ok error) => (some error, .ended)

theorem Audience.afterError_cases (audience : Audience) :
    audience.afterError = .tellingError ∨ audience.afterError = .ended := by
  unfold afterError
  split <;> simp

theorem Audience.afterResult_cases (audience : Audience) :
    audience.afterResult = .tellingResult ∨ audience.afterResult = .ended := by
  unfold afterResult
  split <;> simp

/-- A worker does not begin a job twice. -/
theorem Phase.next_ne_ready (audience : Audience) (phase : Phase) (failure : Option JobProblem) :
    (phase.next audience failure).2 ≠ .ready := by
  have afterError : audience.afterError ≠ .ready := by
    rcases audience.afterError_cases with same | same <;> simp [same]
  have afterResult : audience.afterResult ≠ .ready := by
    rcases audience.afterResult_cases with same | same <;> simp [same]
  unfold next
  split <;> simp [afterError, afterResult]

/-- A dispatcher with its workers. -/
structure Workshop (Job : Type) where
  dispatcher : Dispatcher Job := {}
  /-- The workers that have a job in their hands. -/
  workers : List (Worker Job) := []

/-- What may happen next. -/
inductive Action (Job : Type) where
  /-- Somebody submits a job. -/
  | submit (submission : Submission Job)
  /-- A worker does its next step; if it is in a function of the user, this fails or returns. -/
  | work (position : Nat) (failure : Option JobProblem)

/-- What is noted of a step. -/
inductive Event (Job : Type) where
  | admitted (job : Job)
  | queued (job : Job)
  | dropped (job : Job)
  | started (job : Job)
  /-- A worker takes the waiting job, if there is one. -/
  | took (next : Option Job)
  /-- A worker falls, and with it the waiting job, if there is one. -/
  | fell (lost : Option Job)

namespace Workshop

def submit (workshop : Workshop Job) (submission : Submission Job) :
    List (Event Job) × Workshop Job :=
  let (isAccepted, dispatcher) := workshop.dispatcher.submit submission
  if !isAccepted then
    ([.dropped submission.job], { workshop with dispatcher })
  else if workshop.dispatcher.isBusy then
    ([.queued submission.job], { workshop with dispatcher })
  else
    ([.admitted submission.job], ⟨dispatcher, workshop.workers ++ [{ job := submission.job }]⟩)

/-- Lets a worker take the waiting job, or leave. -/
def take (workshop : Workshop Job) (position : Nat) : List (Event Job) × Workshop Job :=
  ([.took workshop.dispatcher.waiting],
    { dispatcher := workshop.dispatcher.advance
      workers := match workshop.dispatcher.waiting with
        | some job => workshop.workers.set position { job }
        | none => workshop.workers.eraseIdx position })

/-- Lets a worker fall. -/
def fall (workshop : Workshop Job) (position : Nat) : List (Event Job) × Workshop Job :=
  ([.fell workshop.dispatcher.waiting],
    ⟨workshop.dispatcher.abandon, workshop.workers.eraseIdx position⟩)

/-- Lets a worker do its next step. -/
def work (audience : Audience) (workshop : Workshop Job) (position : Nat)
    (failure : Option JobProblem) : List (Event Job) × Workshop Job :=
  match workshop.workers[position]? with
  | none => ([], workshop)
  | some ⟨_, .ended⟩ => workshop.take position
  | some ⟨_, .falling⟩ => workshop.fall position
  | some ⟨job, phase⟩ =>
      let (error, next) := phase.next audience failure
      (if phase = .ready then [.started job] else [],
        { dispatcher :=
          { workshop.dispatcher with lastError := error <|> workshop.dispatcher.lastError }
          workers := workshop.workers.set position ⟨job, next⟩ })

def step (audience : Audience) (workshop : Workshop Job) :
    Action Job → List (Event Job) × Workshop Job
  | .submit submission => workshop.submit submission
  | .work position failure => workshop.work audience position failure

/-- Does steps one after the other; gives what is noted of them. -/
def run (audience : Audience) (workshop : Workshop Job) : List (Action Job) →
    List (Event Job) × Workshop Job
  | [] => ([], workshop)
  | action :: actions =>
      let (events, after) := workshop.step audience action
      let (later, final) := after.run audience actions
      (events ++ later, final)

/-- The workshops in which the dispatcher counts as running exactly while one worker has a job, and
in which no job waits otherwise. -/
inductive IsSound : Workshop Job → Prop
  | idle (error : Option EngineError) : IsSound ⟨⟨none, none, error⟩, []⟩
  | busy (job : Job) (phase : Phase) (waiting : Option Job) (error : Option EngineError) :
      IsSound ⟨⟨some job, waiting, error⟩, [⟨job, phase⟩]⟩

/-- What a step can do to a sound workshop. -/
inductive Move : Workshop Job → List (Event Job) → Workshop Job → Prop
  | stay (workshop : Workshop Job) : Move workshop [] workshop
  | accept (job : Job) (error : Option EngineError) :
      Move ⟨⟨none, none, error⟩, []⟩ [.admitted job]
        ⟨⟨some job, none, error⟩, [{ job }]⟩
  | queue (new job : Job) (phase : Phase) (waiting : Option Job) (error : Option EngineError) :
      Move ⟨⟨some job, waiting, error⟩, [⟨job, phase⟩]⟩ [.queued new]
        ⟨⟨some job, some new, error⟩, [⟨job, phase⟩]⟩
  | drop (new job : Job) (phase : Phase) (waiting : Option Job) (error : Option EngineError) :
      Move ⟨⟨some job, waiting, error⟩, [⟨job, phase⟩]⟩ [.dropped new]
        ⟨⟨some job, waiting, error⟩, [⟨job, phase⟩]⟩
  | start (job : Job) (waiting : Option Job) (error : Option EngineError) :
      Move ⟨⟨some job, waiting, error⟩, [{ job }]⟩ [.started job]
        ⟨⟨some job, waiting, error⟩, [⟨job, .executing⟩]⟩
  | proceed (job : Job) {phase next : Phase} (waiting : Option Job)
      (error after : Option EngineError) (begun : phase ≠ .ready) (goesOn : next ≠ .ready) :
      Move ⟨⟨some job, waiting, error⟩, [⟨job, phase⟩]⟩ []
        ⟨⟨some job, waiting, after⟩, [⟨job, next⟩]⟩
  | next (job waiting : Job) (error : Option EngineError) :
      Move ⟨⟨some job, some waiting, error⟩, [⟨job, .ended⟩]⟩ [.took (some waiting)]
        ⟨⟨some waiting, none, error⟩, [{ job := waiting }]⟩
  | rest (job : Job) (error : Option EngineError) :
      Move ⟨⟨some job, none, error⟩, [⟨job, .ended⟩]⟩ [.took none]
        ⟨⟨none, none, error⟩, []⟩
  | fall (job : Job) (waiting : Option Job) (error : Option EngineError) :
      Move ⟨⟨some job, waiting, error⟩, [⟨job, .falling⟩]⟩ [.fell waiting]
        ⟨⟨none, none, error⟩, []⟩

variable {workshop : Workshop Job}

theorem submit_move (sound : workshop.IsSound) (submission : Submission Job) :
    workshop.Move (workshop.submit submission).1 (workshop.submit submission).2 := by
  cases sound with
  | idle error => exact .accept submission.job error
  | busy job phase waiting error =>
      rcases submission with ⟨new, waits⟩
      cases waits with
      | true => exact .queue new job phase waiting error
      | false => exact .drop new job phase waiting error

theorem work_move (audience : Audience) (sound : workshop.IsSound) (position : Nat)
    (failure : Option JobProblem) :
    workshop.Move (workshop.work audience position failure).1
      (workshop.work audience position failure).2 := by
  cases sound with
  | idle error => exact .stay _
  | busy job phase waiting error =>
      rcases position with _ | position
      · cases phase with
        | ready => exact .start job waiting error
        | ended =>
            cases waiting with
            | none => exact .rest job error
            | some next => exact .next job next error
        | falling => exact .fall job waiting error
        | executing =>
            exact .proceed job waiting error _ (by decide) (Phase.next_ne_ready audience _ _)
        | tellingResult =>
            exact .proceed job waiting error _ (by decide) (Phase.next_ne_ready audience _ _)
        | tellingError =>
            exact .proceed job waiting error _ (by decide) (Phase.next_ne_ready audience _ _)
      · exact .stay _

/-- Every step of a sound workshop is one of the moves. -/
theorem step_move (audience : Audience) (sound : workshop.IsSound) (action : Action Job) :
    workshop.Move (workshop.step audience action).1 (workshop.step audience action).2 := by
  cases action with
  | submit submission => exact submit_move sound submission
  | work position failure => exact work_move audience sound position failure

theorem Move.isSound {events : List (Event Job)} {after : Workshop Job}
    (move : workshop.Move events after) (sound : workshop.IsSound) : after.IsSound := by
  cases move with
  | stay => exact sound
  | rest => exact .idle _
  | fall => exact .idle _
  | _ => exact .busy _ _ _ _

end Workshop

end Dispatcher

end Retouch
