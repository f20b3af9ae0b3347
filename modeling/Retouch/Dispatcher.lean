import Retouch.Engine
import Retouch.Progress

/-!
# Dispatchers

A dispatcher runs one job at a time. A job that is submitted while another one runs waits for it and
takes the place of the job that waited before, or it is dropped if it is not to wait. When a job has
ended, the listeners hear of it, while the dispatcher still counts as running; they may submit jobs
themselves and may fail. Then the waiting job starts. A job that is killed takes the waiting job
with it, and no listener hears of it. The same becomes of the waiting job if a failure is to be
reported as an engine error and does not tell its message: the worker falls with it.
-/

namespace Retouch

structure Dispatcher (Job : Type) where
  running : Option Job := none
  waiting : Option Job := none
  lastError : Option EngineError := none

namespace Dispatcher

variable {Job Result State : Type}

structure Submission (Job : Type) where
  job : Job
  /-- Whether it waits if another job runs. -/
  waits : Bool := true

/-- What a listener does when it hears of a job. -/
structure Reaction (Job : Type) where
  submissions : List (Submission Job) := []
  failure : Option Failure := none

/-- Who hears of the end of a job; the listeners share a state of their own. -/
structure Listeners (Job Result State : Type) where
  onDone : Option (Job → Result → State → Reaction Job × State) := none
  onError : Option (Job → EngineError → State → Reaction Job × State) := none

/-- What can be seen of a dispatcher from outside. -/
inductive Happening (Job : Type) where
  | started (job : Job)
  /-- A listener hears of a result. -/
  | done (job : Job)
  /-- A listener hears of an error. -/
  | failed (job : Job) (error : EngineError)
  /-- A listener submits a job, which is accepted or dropped. -/
  | submitted (isAccepted : Bool)

inductive Ending (Result : Type) where
  | returned (result : Result)
  | failed (problem : JobProblem)
  | killed

/-- A dispatcher with the state of its listeners and what has happened. -/
structure Turn (Job State : Type) where
  dispatcher : Dispatcher Job
  state : State
  seen : List (Happening Job) := []

def isBusy (dispatcher : Dispatcher Job) : Bool :=
  dispatcher.running.isSome

/-- Submits a job; gives whether it is accepted. -/
def submit (dispatcher : Dispatcher Job) (submission : Submission Job) : Bool × Dispatcher Job :=
  match dispatcher.running with
  | none => (true, { dispatcher with running := some submission.job })
  | some _ =>
      if submission.waits then (true, { dispatcher with waiting := some submission.job })
      else (false, dispatcher)

/-- Goes on with the waiting job after a job, or to rest. -/
def advance (dispatcher : Dispatcher Job) : Dispatcher Job :=
  { dispatcher with running := dispatcher.waiting, waiting := none }

def abandon (dispatcher : Dispatcher Job) : Dispatcher Job :=
  { dispatcher with running := none, waiting := none }

namespace Turn

def submitAll (turn : Turn Job State) : List (Submission Job) → Turn Job State
  | [] => turn
  | submission :: submissions =>
      let (isAccepted, dispatcher) := turn.dispatcher.submit submission
      submitAll { turn with dispatcher, seen := turn.seen ++ [Happening.submitted isAccepted] }
        submissions

def report (turn : Turn Job State) (error : EngineError) : Turn Job State :=
  { turn with dispatcher := { turn.dispatcher with lastError := some error } }

/-- Tells the listener for errors of an error. If the listener fails, its failure is the last
error. -/
def tellError (listeners : Listeners Job Result State) (turn : Turn Job State) (job : Job)
    (error : EngineError) : Progress (Turn Job State) Failure :=
  let reported := turn.report error
  match listeners.onError with
  | none => { state := reported }
  | some listener =>
      let (reaction, state) := listener job error reported.state
      let heard := { reported with state, seen := reported.seen ++ [Happening.failed job error] }
      let after := heard.submitAll reaction.submissions
      match reaction.failure.map EngineError.ofFailure with
      | none => { state := after }
      | some (.ok error) => { state := after.report error }
      | some (.error asking) => ⟨after, some asking⟩

/-- Tells the listener for results of a result. If the listener fails, its failure is told to the
listener for errors. -/
def tellResult (listeners : Listeners Job Result State) (turn : Turn Job State) (job : Job)
    (result : Result) : Progress (Turn Job State) Failure :=
  match listeners.onDone with
  | none => { state := turn }
  | some listener =>
      let (reaction, state) := listener job result turn.state
      let heard := { turn with state, seen := turn.seen ++ [Happening.done job] }
      let after := heard.submitAll reaction.submissions
      match reaction.failure.map EngineError.ofFailure with
      | none => { state := after }
      | some (.ok error) => after.tellError listeners job error
      | some (.error asking) => ⟨after, some asking⟩

def advance (turn : Turn Job State) : Turn Job State :=
  { turn with
    dispatcher := turn.dispatcher.advance
    seen := turn.seen ++ (turn.dispatcher.waiting.map Happening.started).toList }

def abandon (turn : Turn Job State) : Turn Job State :=
  { turn with dispatcher := turn.dispatcher.abandon }

/-- Leaves a job behind: the waiting one starts, unless the worker fell. -/
def leave (progress : Progress (Turn Job State) Failure) : Turn Job State :=
  match progress.error with
  | none => progress.state.advance
  | some _ => progress.state.abandon

end Turn

/-- Ends the running job; nothing comes of it if no job runs. -/
def finish? (listeners : Listeners Job Result State) (dispatcher : Dispatcher Job) (state : State)
    (ending : Ending Result) : Option (Turn Job State) :=
  dispatcher.running.map fun job =>
    let turn : Turn Job State := { dispatcher, state }
    match ending with
    -- nobody hears of a job whose worker was killed, and the waiting one is lost with it
    | .killed => turn.abandon
    | .returned result => Turn.leave (turn.tellResult listeners job result)
    | .failed problem =>
        match problem.error with
        | .ok error => Turn.leave (turn.tellError listeners job error)
        | .error _ => turn.abandon

end Dispatcher

end Retouch
