import Retouch.Proofs.Dispatcher.Interleaving

/-!
# Turns as runs

A dispatcher that ends its running job in one turn, with all that the listeners do when they hear of
it, does nothing else than a worker that goes through its phases step by step while the listeners
submit their jobs in between. What holds of every run of a workshop therefore holds of every
sequence of turns.
-/

namespace Retouch.Dispatcher

variable {Job Result State : Type}

def Listeners.audience (listeners : Listeners Job Result State) : Audience :=
  ⟨listeners.onDone.isSome, listeners.onError.isSome⟩

namespace Workshop

/-- The workshop of a dispatcher whose running job, if there is one, is in the hands of a worker. -/
def ofDispatcher (dispatcher : Dispatcher Job) (phase : Phase) : Workshop Job :=
  ⟨dispatcher, (dispatcher.running.map fun job => ⟨job, phase⟩).toList⟩

/-- One workshop leads to another if some run ends there. -/
def LeadsTo (audience : Audience) (workshop final : Workshop Job) : Prop :=
  ∃ actions, (workshop.run audience actions).2 = final

variable {audience : Audience}

theorem run_append (workshop : Workshop Job) (first second : List (Action Job)) :
    (workshop.run audience (first ++ second)).2 =
      ((workshop.run audience first).2.run audience second).2 := by
  induction first generalizing workshop with
  | nil => rfl
  | cons action first ih => exact ih _

theorem LeadsTo.refl (workshop : Workshop Job) : LeadsTo audience workshop workshop :=
  ⟨[], rfl⟩

theorem LeadsTo.trans {first second third : Workshop Job} (before : LeadsTo audience first second)
    (after : LeadsTo audience second third) : LeadsTo audience first third := by
  rcases before with ⟨begins, rfl⟩
  rcases after with ⟨ends, rfl⟩
  exact ⟨begins ++ ends, run_append first begins ends⟩

end Workshop

open Workshop

theorem running_submit {dispatcher : Dispatcher Job} {job : Job}
    (runs : dispatcher.running = some job) (submission : Submission Job) :
    (dispatcher.submit submission).2.running = some job := by
  cases waits : submission.waits <;> simp [Dispatcher.submit, runs, waits]

namespace Workshop

variable (audience) {dispatcher : Dispatcher Job} {job : Job} (runs : dispatcher.running = some job)

include runs

theorem leadsTo_submit (phase : Phase) (submission : Submission Job) :
    LeadsTo audience (ofDispatcher dispatcher phase)
      (ofDispatcher (dispatcher.submit submission).2 phase) := by
  refine ⟨[.submit submission], ?_⟩
  cases waits : submission.waits <;>
    simp [run, step, submit, ofDispatcher, Dispatcher.submit, isBusy, runs, waits]

theorem leadsTo_next (phase : Phase) (goesOn : phase ≠ .ended) (stands : phase ≠ .falling)
    (failure : Option JobProblem) :
    LeadsTo audience (ofDispatcher dispatcher phase)
      (ofDispatcher
        { dispatcher with lastError := (phase.next audience failure).1 <|> dispatcher.lastError }
        (phase.next audience failure).2) := by
  refine ⟨[.work 0 failure], ?_⟩
  cases phase <;> simp_all [run, step, work, ofDispatcher]

theorem leadsTo_advance :
    LeadsTo audience (ofDispatcher dispatcher .ended) (ofDispatcher dispatcher.advance .ready) := by
  refine ⟨[.work 0 none], ?_⟩
  rcases waiting : dispatcher.waiting with _ | next <;>
    simp [run, step, work, take, ofDispatcher, advance, runs, waiting]

theorem leadsTo_abandon :
    LeadsTo audience (ofDispatcher dispatcher .falling)
      (ofDispatcher dispatcher.abandon .ready) := by
  refine ⟨[.work 0 none], ?_⟩
  simp [run, step, work, fall, ofDispatcher, abandon, runs]

end Workshop

namespace Turn

variable {turn : Turn Job State} {job : Job} (runs : turn.dispatcher.running = some job)

include runs

/-- A listener that submits jobs does so step by step, and the running job goes on. -/
theorem leadsTo_submitAll (audience : Audience) (phase : Phase)
    (submissions : List (Submission Job)) :
    (turn.submitAll submissions).dispatcher.running = some job ∧
      LeadsTo audience (ofDispatcher turn.dispatcher phase)
        (ofDispatcher (turn.submitAll submissions).dispatcher phase) := by
  induction submissions generalizing turn with
  | nil => exact ⟨runs, .refl _⟩
  | cons submission submissions ih =>
      have runsOn := running_submit runs submission
      rcases @ih { turn with dispatcher := (turn.dispatcher.submit submission).2, seen := _ } runsOn
        with ⟨runsAfter, leads⟩
      exact ⟨runsAfter, .trans (leadsTo_submit audience runs phase submission) leads⟩

/-- A listener that has submitted its jobs returns or fails. -/
theorem leadsTo_react (audience : Audience) {phase : Phase}
    (telling : phase = .tellingResult ∨ phase = .tellingError)
    (submissions : List (Submission Job)) (failure : Option Failure) :
    let after := turn.submitAll submissions
    let next := phase.next audience (failure.map .other)
    after.dispatcher.running = some job ∧
      LeadsTo audience (ofDispatcher turn.dispatcher phase)
        (ofDispatcher { after.dispatcher with lastError := next.1 <|> after.dispatcher.lastError }
          next.2) := by
  rcases leadsTo_submitAll runs audience phase submissions with ⟨runsAfter, leads⟩
  refine ⟨runsAfter, leads.trans (leadsTo_next _ runsAfter _ ?_ ?_ _)⟩
  · rcases telling with rfl | rfl <;> decide
  · rcases telling with rfl | rfl <;> decide

/-- A worker that tells an error goes on to the waiting job, or it falls. -/
theorem leadsTo_tellError (listeners : Listeners Job Result State) (told : Job)
    (error : EngineError) :
    LeadsTo listeners.audience
      (ofDispatcher (turn.report error).dispatcher listeners.audience.afterError)
      (ofDispatcher (leave (turn.tellError listeners told error)).dispatcher .ready) := by
  have runsOn : (turn.report error).dispatcher.running = some job := runs
  unfold tellError Listeners.audience Audience.afterError
  rcases listeners.onError with _ | listener
  · exact leadsTo_advance _ runsOn
  · rcases reacts : listener told error turn.state with ⟨⟨submissions, failure⟩, state⟩
    rcases @leadsTo_react _ _
      { turn.report error with state, seen := turn.seen ++ [.failed told error] } job runs
      ⟨listeners.onDone.isSome, true⟩ .tellingError (.inr rfl) submissions failure with
      ⟨runsAfter, ends⟩
    dsimp only [report]
    rw [reacts]
    rcases failure with _ | ⟨kind, message⟩ | ⟨kind, asking⟩
    · exact ends.trans (leadsTo_advance _ runsAfter)
    · exact ends.trans (leadsTo_advance _ runsAfter)
    · exact ends.trans (leadsTo_abandon _ runsAfter)

/-- A worker that tells a result goes on to the waiting job, or it falls. -/
theorem leadsTo_tellResult (listeners : Listeners Job Result State) (told : Job) (result : Result) :
    LeadsTo listeners.audience (ofDispatcher turn.dispatcher listeners.audience.afterResult)
      (ofDispatcher (leave (turn.tellResult listeners told result)).dispatcher .ready) := by
  unfold tellResult
  rcases heard : listeners.onDone with _ | listener
  · have phase : listeners.audience.afterResult = .ended := by
      simp [Listeners.audience, Audience.afterResult, heard]
    rw [phase]
    exact leadsTo_advance _ runs
  · have phase : listeners.audience.afterResult = .tellingResult := by
      simp [Listeners.audience, Audience.afterResult, heard]
    rcases reacts : listener told result turn.state with ⟨⟨submissions, failure⟩, state⟩
    rcases @leadsTo_react _ _ { turn with state, seen := turn.seen ++ [.done told] } job runs
      listeners.audience .tellingResult (.inl rfl) submissions failure with ⟨runsAfter, ends⟩
    rw [phase]
    dsimp only
    rw [reacts]
    rcases failure with _ | ⟨kind, message⟩ | ⟨kind, asking⟩
    · exact ends.trans (leadsTo_advance _ runsAfter)
    · exact ends.trans (leadsTo_tellError runsAfter listeners told (.wrapped kind message))
    · exact ends.trans (leadsTo_abandon _ runsAfter)

end Turn

/-- A turn that ends the running job with a result or an error is a run: the worker goes from the
execution of the job to the next one, or it falls, and the listeners submit their jobs on the
way. -/
theorem leadsTo_finish? (listeners : Listeners Job Result State) (dispatcher : Dispatcher Job)
    (state : State) {ending : Ending Result} {turn : Turn Job State} (alive : ending ≠ .killed)
    (finishes : dispatcher.finish? listeners state ending = some turn) :
    LeadsTo listeners.audience (ofDispatcher dispatcher .executing)
      (ofDispatcher turn.dispatcher .ready) := by
  rcases Option.map_eq_some_iff.mp finishes with ⟨job, runs, rfl⟩
  have begun : (⟨dispatcher, state, []⟩ : Turn Job State).dispatcher.running = some job := runs
  cases ending with
  | killed => exact (alive rfl).elim
  | returned result =>
      have executes := leadsTo_next listeners.audience runs .executing (by decide) (by decide) none
      exact executes.trans (Turn.leadsTo_tellResult begun listeners job result)
  | failed problem =>
      have executes :=
        leadsTo_next listeners.audience runs .executing (by decide) (by decide) (some problem)
      rcases reported : problem.error with asking | error
      · simp only [Phase.next, Phase.report, Option.map_some, reported] at executes ⊢
        exact executes.trans (leadsTo_abandon _ runs)
      · simp only [Phase.next, Phase.report, Option.map_some, reported] at executes ⊢
        exact executes.trans (Turn.leadsTo_tellError begun listeners job error)

end Retouch.Dispatcher
