import Retouch.Proofs.Agent.Notes
import Retouch.Proofs.EventLog.Journal
import Retouch.Proofs.Files.Frame

/-!
# The outcome of a run

Whatever the engine does, and whether or not its output can be kept, a run that comes to the engine
ends in one of two ways. Either the runner gave a result and the listener for results came to its
end: then the exit code is zero, and the last event says that the engine finished. Or the exit code
is one, and the last event says that it failed. No other event of the run is about the engine. The
file of the events has to be another one than that of the output; that it can be appended to is
known from the notes of the agent, which come first. Of the library of pictures it is assumed that
it writes to the file of the output only and that it says why it fails.
-/

namespace Retouch

/-! ## The runner -/

namespace Runner

/-- Whether an engine ended as a job needs it: with code zero and some bytes in the output file, of
which a preview has four for each pixel. -/
def Delivers (job : Job) (data : Bytes) (ended : EngineEnd) : Prop :=
  ∃ output files, ended = .exited 0 output files ∧ files.get? (outputFile job) = some data ∧
    (job.isExport = false → (data.length : Int) = job.image.width * job.image.height * 4)

def resultWith (job : Job) (data : Bytes) : EngineResult :=
  ⟨data, job.image.width, job.image.height, job.isExport, argumentsOf job⟩

variable {runner : Runner} {job : Job} {ended : EngineEnd} {result : EngineResult}

theorem resultOf_eq_ok_iff {output : Text} {files : Record Bytes} :
    resultOf job output files = .ok result ↔
      ∃ data, files.get? (outputFile job) = some data ∧
        (job.isExport = false → (data.length : Int) = job.image.width * job.image.height * 4) ∧
          result = resultWith job data := by
  unfold resultOf
  split
  · next missing => simp [missing]
  · next data isThere =>
      simp only [isThere, Option.some.injEq, exists_eq_left', Bool.not_eq_true']
      split
      · next wrong => simp [wrong]
      · next right =>
          simp only [not_and, not_not, ne_eq] at right
          simp only [Except.ok.injEq, resultWith]
          tauto

/-- The runner gives a result exactly if the engine ended as the job needs it. -/
theorem judge_eq_ok_iff :
    runner.judge job ended = .ok result ↔ ∃ data, Delivers job data ended ∧
      result = resultWith job data := by
  unfold judge Delivers
  cases ended with
  | notFound => simp
  | timedOut => simp
  | problem problem => simp
  | exited code output files =>
      dsimp only
      split
      · next isZero =>
          rw [resultOf_eq_ok_iff]
          simp [isZero, and_assoc]
      · next other => simp [other]

/-- Without a result there is an engine error with a message, unless the engine could not be run for
another reason. -/
theorem cases_of_judge_eq_error {problem : JobProblem}
    (failed : runner.judge job ended = .error problem) :
    ended = .problem problem ∨
      ∃ error message, problem = .engine error ∧ error.message = .ok message := by
  unfold judge resultOf at failed
  split at failed
  · exact .inr ⟨_, _, (Except.error.inj failed).symm, rfl⟩
  · exact .inr ⟨_, _, (Except.error.inj failed).symm, rfl⟩
  · exact .inl (congrArg EngineEnd.problem (Except.error.inj failed))
  · dsimp only at failed
    split at failed
    · split at failed
      · exact .inr ⟨_, _, (Except.error.inj failed).symm, rfl⟩
      · split at failed
        · exact .inr ⟨_, _, (Except.error.inj failed).symm, rfl⟩
        · simp at failed
    · exact .inr ⟨_, _, (Except.error.inj failed).symm, rfl⟩

end Runner

/-- Whether an engine that cannot be run tells why. -/
def EngineEnd.IsTold (ended : EngineEnd) : Prop :=
  ∀ problem, ended = .problem problem → problem.IsTold

/-- Without a result there is an engine error with a message to report. -/
theorem Runner.exists_error_of_judge {runner : Runner} {job : Job} {ended : EngineEnd}
    (told : ended.IsTold) {problem : JobProblem}
    (failed : runner.judge job ended = .error problem) :
    ∃ error message, problem.error = .ok error ∧ error.message = .ok message := by
  rcases cases_of_judge_eq_error failed with other | ⟨error, message, rfl, isMessage⟩
  · exact (told problem other).exists_error
  · exact ⟨error, message, rfl, isMessage⟩

namespace Run

section Dispatch

/-! ## The dispatch of a job -/

variable {world : World} {output : Output} {runner : Runner} {files : FileTree} {job : Job}
  {result : EngineResult} {error : EngineError} {message : Text}

/-- Whether the runner gives a result and the listener for results comes to its end. -/
def Completes (world : World) (output : Output) (runner : Runner) (files : FileTree)
    (job : Job) : Prop :=
  ∃ result, runner.run world.engine job = .ok result ∧
    (onDone world output job result { files }).1.failure = none

theorem state_submitAll (turn : Dispatcher.Turn Job Work)
    (submissions : List (Dispatcher.Submission Job)) :
    (turn.submitAll submissions).state = turn.state := by
  induction submissions generalizing turn with
  | nil => rfl
  | cons submission submissions ih => exact ih _

/-- Whether the worker goes on or falls, the listeners keep what they have done. -/
theorem state_leave (progress : Progress (Dispatcher.Turn Job Work) Failure) :
    (Dispatcher.Turn.leave progress).state = progress.state.state := by
  unfold Dispatcher.Turn.leave
  split <;> rfl

theorem state_tellError (turn : Dispatcher.Turn Job Work) :
    (turn.tellError (listeners world output) job error).state.state =
      (onError world output job error turn.state).2 := by
  unfold Dispatcher.Turn.tellError listeners
  dsimp only
  split <;> exact state_submitAll _ _

theorem state_tellResult (turn : Dispatcher.Turn Job Work) :
    (turn.tellResult (listeners world output) job result).state.state =
      match (onDone world output job result turn.state).1.failure.map EngineError.ofFailure with
      | some (.ok error) =>
          (onError world output job error (onDone world output job result turn.state).2).2
      | _ => (onDone world output job result turn.state).2 := by
  unfold Dispatcher.Turn.tellResult
  dsimp only [listeners]
  split
  · next returned =>
      rw [returned]
      exact state_submitAll _ _
  · next error failed =>
      rw [failed]
      exact (state_tellError _).trans (by rw [state_submitAll])
  · next asking failed =>
      rw [failed]
      exact state_submitAll _ _

/-- A problem of the runner is told to the listener for errors. -/
theorem dispatch_of_error {problem : JobProblem}
    (failed : runner.run world.engine job = .error problem) (reported : problem.error = .ok error) :
    dispatch world output runner files job = (onError world output job error { files }).2 := by
  unfold dispatch Dispatcher.finish?
  rw [failed]
  dsimp only [Dispatcher.submit, Option.map_some]
  rw [reported]
  dsimp only
  rw [state_leave, state_tellError]

/-- A result is told to the listener for results. -/
theorem dispatch_of_ok (done : runner.run world.engine job = .ok result)
    (returned : (onDone world output job result { files }).1.failure = none) :
    dispatch world output runner files job = (onDone world output job result { files }).2 := by
  unfold dispatch Dispatcher.finish?
  rw [done]
  dsimp only [Dispatcher.submit, Option.map_some]
  rw [state_leave, state_tellResult, returned]
  rfl

/-- A failure of the listener for results is told to the one for errors. -/
theorem dispatch_of_failure (done : runner.run world.engine job = .ok result) {failure : Failure}
    (failed : (onDone world output job result { files }).1.failure = some failure)
    (told : failure.message = .ok message) :
    dispatch world output runner files job =
      (onError world output job (.wrapped failure.kind message)
        (onDone world output job result { files }).2).2 := by
  have reported := EngineError.ofFailure_of_message told
  unfold dispatch Dispatcher.finish?
  rw [done]
  dsimp only [Dispatcher.submit, Option.map_some]
  rw [state_leave, state_tellResult, failed, Option.map_some, reported]

/-! ## The last event -/

variable {before : Bytes}

def finishedNote (world : World) (output : Output) (result : EngineResult) : Note :=
  .engineFinished result.arguments world.clock.elapsed output.target.text

def lineOf (world : World) (output : Output) (note : Note) : Bytes :=
  EventLog.linesOf ⟨output.events, world.session⟩ world.clock.stamp [note]

theorem note_of_isReady {work : Work} (ready : work.files.IsReady output.events before)
    (entry : Note) :
    (note (journalOf world output) work entry).1.failure = none ∧
      (note (journalOf world output) work entry).2.errors = work.errors ∧
        (note (journalOf world output) work entry).2.files.IsReady output.events
          (before ++ lineOf world output entry) := by
  have wrote : ((journalOf world output).write work.files entry).error = none ∧
      ((journalOf world output).write work.files entry).state.IsReady output.events
        (before ++ lineOf world output entry) := EventLog.isReady_write ready entry
  refine ⟨?_, rfl, wrote.2⟩
  unfold note
  dsimp only
  rw [wrote.1]
  rfl

theorem onDone_of_kept (job : Job)
    (kept : (keep world.pictures files output.target result).error = none) :
    onDone world output job result { files } =
      note (journalOf world output)
        { files := (keep world.pictures files output.target result).state }
        (finishedNote world output result) := by
  unfold onDone
  rcases isKept : keep world.pictures files output.target result with ⟨after, _ | failure⟩
  · simp [finishedNote]
  · simp [isKept] at kept

/-- An output that cannot be kept is a failure of the listener. -/
theorem onDone_of_failure (job : Job) {failure : Failure}
    (failed : (keep world.pictures files output.target result).error = some failure) :
    onDone world output job result { files } =
      ({ failure := some failure },
        { files := (keep world.pictures files output.target result).state }) := by
  unfold onDone
  rcases isKept : keep world.pictures files output.target result with ⟨after, _ | other⟩
  · simp [isKept] at failed
  · rw [isKept] at failed
    simp [Option.some.inj failed]

/-- The listener for errors remembers the error and notes it. -/
theorem onError_of_isReady {work : Work} (ready : work.files.IsReady output.events before)
    (told : error.message = .ok message) :
    (onError world output job error work).2.errors = work.errors ++ [error] ∧
      (onError world output job error work).2.files.IsReady output.events
        (before ++ lineOf world output (.engineFailed message error.output)) := by
  let remembered : Work := { work with errors := work.errors ++ [error] }
  have isReady : remembered.files.IsReady output.events before := ready
  unfold onError
  rw [told]
  exact (note_of_isReady isReady (.engineFailed message error.output)).2

variable (reliable : world.pictures.IsReliable) (ready : files.IsReady output.events before)
  (apart : files.IsApart output.target output.events)

include reliable ready apart

/-- Keeping an output does not change the events. -/
theorem isReady_keep (result : EngineResult) :
    (keep world.pictures files output.target result).state.IsReady output.events before := by
  rcases FileTree.node?_eq_some_iff.mp ready.isFile with ⟨place, leads, isFile⟩
  exact (spares_keep reliable apart leads (by simp [isFile]) result).isReady leads ready

/-- The listener for results comes to its end exactly if the output is kept. -/
theorem failure_onDone_eq_none_iff (result : EngineResult) :
    (onDone world output job result { files }).1.failure = none ↔
      (keep world.pictures files output.target result).error = none := by
  cases outcome : (keep world.pictures files output.target result).error with
  | none =>
      let keeping : Work := { files := (keep world.pictures files output.target result).state }
      have isReady : keeping.files.IsReady output.events before :=
        isReady_keep reliable ready apart result
      rw [onDone_of_kept job outcome]
      simpa using (note_of_isReady isReady (finishedNote world output result)).1
  | some failure =>
      rw [onDone_of_failure job outcome]

/-- A job that is dispatched leaves one note behind the events. -/
theorem dispatch_of_isReady (runner : Runner) (job : Job)
    (told : (world.engine (runner.callOf job)).IsTold) :
    (Completes world output runner files job ∧
        (dispatch world output runner files job).errors = [] ∧
        ∃ result, runner.run world.engine job = .ok result ∧
          (dispatch world output runner files job).files.IsReady output.events
            (before ++ lineOf world output (finishedNote world output result))) ∨
      (¬Completes world output runner files job ∧
        ∃ error message, error.message = .ok message ∧
          (dispatch world output runner files job).errors = [error] ∧
            (dispatch world output runner files job).files.IsReady output.events
              (before ++ lineOf world output (.engineFailed message error.output))) := by
  cases ran : runner.run world.engine job with
  | error problem =>
      right
      rcases Runner.exists_error_of_judge told ran with ⟨error, message, reported, isMessage⟩
      rw [dispatch_of_error ran reported]
      refine ⟨?_, error, message, isMessage, onError_of_isReady ready isMessage⟩
      rintro ⟨result, done, -⟩
      simp [ran] at done
  | ok result =>
      let keeping : Work := { files := (keep world.pictures files output.target result).state }
      have isReady : keeping.files.IsReady output.events before :=
        isReady_keep reliable ready apart result
      cases outcome : (keep world.pictures files output.target result).error with
      | none =>
          left
          have kept : onDone world output job result { files } = _ := onDone_of_kept job outcome
          rcases note_of_isReady isReady (finishedNote world output result) with
            ⟨noFailure, noErrors, readyAfter⟩
          have returned : (onDone world output job result { files }).1.failure = none := by
            rw [kept, noFailure]
          rw [dispatch_of_ok ran returned, kept]
          exact ⟨⟨result, ran, returned⟩, noErrors, result, rfl, readyAfter⟩
      | some failure =>
          -- The listener for results has failed, so its failure is told to the one for errors.
          right
          have broken : onDone world output job result { files } = _ :=
            onDone_of_failure job outcome
          rcases isTold_of_keep reliable outcome with ⟨message, isMessage⟩
          have failed : (onDone world output job result { files }).1.failure = some failure := by
            rw [broken]
          rw [dispatch_of_failure ran failed isMessage, broken]
          refine ⟨?_, .wrapped failure.kind message, message, rfl,
            onError_of_isReady isReady rfl⟩
          rintro ⟨other, done, noFailure⟩
          obtain rfl : result = other := Except.ok.inj (ran.symm.trans done)
          simp [failed] at noFailure

end Dispatch

/-! ## The run -/

/-- What a run has when it comes to the engine. -/
structure Stage where
  settings : Settings
  output : Output
  source : Source
  image : RawImage
  vibe : Text

namespace Stage

def runner (stage : Stage) : Runner := { binary := stage.settings.binary }

/-- The job for a command. -/
def job (stage : Stage) (command : Text) : Job :=
  { command, image := stage.image, isExport := stage.output.isExport }

/-- What the agent makes of the vibe. -/
def generated (stage : Stage) (world : World) : Agent.Outcome FileTree FileError :=
  Agent.process (journalOf world stage.output) { log := world.files } stage.source stage.vibe

/-- The files when the engine is called. -/
def files (stage : Stage) (world : World) : FileTree :=
  (stage.generated world).agent.log

def Completes (stage : Stage) (world : World) (command : Text) : Prop :=
  Run.Completes world stage.output stage.runner (stage.files world) (stage.job command)

/-- Whether a run comes to the engine with what a stage has: the source is known, the image is
decoded by the library, and the agent gives entries. -/
structure IsReached (stage : Stage) (world : World) (options : RunOptions) : Prop where
  settings : Settings.ofEnvironment world.environment = .ok stage.settings
  output : ∃ target, options.target = some target ∧
    stage.output = Output.ofNames target options.events options.isExport
  source : ∃ name, options.source = some name ∧
    (SourceRegistry.default (seedOf world stage.settings)).get? name = some stage.source
  image : ∃ path, options.image = some path ∧
    PictureFile.load world.pictures world.files (Path.ofText path)
      (.int stage.settings.maxDimension) stage.settings.keepsEdges = .ok stage.image
  vibe : options.vibe = some stage.vibe
  entries : ∃ entries, (stage.generated world).result = .ok entries

/-- How a run ends that comes to the engine with a command, given the events before: how the runner
answers, which exit code there is, and which event is the last one. -/
structure EndsAs (stage : Stage) (world : World) (command : Text) (before : Bytes)
    (ended : Performance) : Prop where
  /-- The engine is called once, for the job of the command. -/
  calls : ended.calls = [stage.runner.callOf (stage.job command)]
  /-- The runner returns a result exactly if the engine ended as the job needs it. -/
  returns : ∀ result, stage.runner.run world.engine (stage.job command) = .ok result ↔
    ∃ data, Runner.Delivers (stage.job command) data
        (world.engine (stage.runner.callOf (stage.job command))) ∧
      result = Runner.resultWith (stage.job command) data
  /-- Otherwise it raises an engine error. -/
  raises :
    (∀ problem, world.engine (stage.runner.callOf (stage.job command)) ≠ .problem problem) →
      ∀ problem, stage.runner.run world.engine (stage.job command) = .error problem →
        ∃ error, problem = .engine error
  /-- The listener for results comes to its end exactly if the output is kept. -/
  keeps : ∀ result,
    (onDone world stage.output (stage.job command) result
        { files := stage.files world }).1.failure = none ↔
      (keep world.pictures (stage.files world) stage.output.target result).error = none
  /-- The exit code is zero exactly if the runner returns a result and the listener comes to its
  end. -/
  zero : ended.ending = .ok 0 ↔ stage.Completes world command
  /-- Otherwise it is one. -/
  one : ended.ending = .ok 1 ↔ ¬stage.Completes world command
  /-- In the first case the one event behind those before says that the engine finished. -/
  finished : stage.Completes world command →
    ∃ result, stage.runner.run world.engine (stage.job command) = .ok result ∧
      ended.files.read stage.output.events =
        .ok (before ++ lineOf world stage.output (finishedNote world stage.output result))
  /-- In the second case it says that the engine failed. -/
  failed : ¬stage.Completes world command →
    ∃ error message, EngineError.message error = .ok message ∧
      ended.files.read stage.output.events =
        .ok (before ++ lineOf world stage.output (.engineFailed message error.output))

end Stage

variable {world : World} {options : RunOptions} {stage : Stage} {command : Text} {before : Bytes}

/-- A run that comes to the engine renders the command of the stack. -/
theorem Stage.IsReached.perform_eq (reached : stage.IsReached world options)
    (built : (stage.generated world).agent.stack.command = .ok command) :
    ∃ printed, perform world options =
      render world stage.output stage.settings stage.image (stage.files world) printed command := by
  rcases reached with ⟨settings, ⟨target, hasTarget, isOutput⟩, ⟨name, hasName, known⟩,
    ⟨path, hasPath, loaded⟩, vibe, entries, answered⟩
  have attempted : attempt world options = .ok
      (withVibe world stage.output stage.settings stage.source stage.image stage.vibe) := by
    unfold attempt
    simp only [settings, hasTarget, hasName, hasPath, vibe, needed, Except.mapError, bind,
      Except.bind, known, loaded, ← isOutput, pure, Except.pure]
  refine ⟨entries.flatMap entryLine, ?_⟩
  unfold perform
  rw [attempted]
  unfold generated at answered built
  simp only [withVibe, answered, built]
  rfl

section Render

variable (reliable : world.pictures.IsReliable)
  (told : ∀ call, (world.engine call).IsTold)
  (ready : (stage.files world).IsReady stage.output.events before)
  (apart : (stage.files world).IsApart stage.output.target stage.output.events)

include reliable told ready apart

/-- Rendering ends in one of two ways. -/
theorem Stage.render_cases (printed command : Text) :
    let ended := render world stage.output stage.settings stage.image (stage.files world) printed
      command
    (ended.ending = .ok 0 ∧ stage.Completes world command ∧
        ∃ result, stage.runner.run world.engine (stage.job command) = .ok result ∧
          ended.files.IsReady stage.output.events
            (before ++ lineOf world stage.output (finishedNote world stage.output result))) ∨
      (ended.ending = .ok 1 ∧ ¬stage.Completes world command ∧
        ∃ error message, EngineError.message error = .ok message ∧
          ended.files.IsReady stage.output.events
            (before ++ lineOf world stage.output (.engineFailed message error.output))) := by
  rcases dispatch_of_isReady reliable ready apart stage.runner (stage.job command) (told _) with
    ⟨completes, noErrors, result, ran, isReady⟩ |
      ⟨incomplete, error, message, isMessage, oneError, isReady⟩
  · left
    refine ⟨?_, completes, result, ran, isReady⟩
    change ((conclude world stage.output (dispatch world stage.output stage.runner
      (stage.files world) (stage.job command))).map (·.2)).mapError Breakdown.other = _
    rw [conclude, noErrors]
    rfl
  · right
    refine ⟨?_, incomplete, error, message, isMessage, isReady⟩
    change ((conclude world stage.output (dispatch world stage.output stage.runner
      (stage.files world) (stage.job command))).map (·.2)).mapError Breakdown.other = _
    rw [conclude, oneError]
    dsimp only [List.getLast?_singleton]
    rw [isMessage]
    rfl

theorem Stage.endsAs_render (printed command : Text) :
    stage.EndsAs world command before (render world stage.output stage.settings stage.image
      (stage.files world) printed command) where
  calls := rfl
  returns _ := Runner.judge_eq_ok_iff
  raises known problem failed := by
    rcases Runner.cases_of_judge_eq_error failed with other | ⟨error, -, isEngine, -⟩
    · exact absurd other (known problem)
    · exact ⟨error, isEngine⟩
  keeps := failure_onDone_eq_none_iff reliable ready apart
  zero := by
    rcases render_cases reliable told ready apart printed command with
      ⟨ending, completes, -⟩ | ⟨ending, incomplete, -⟩
    · simp [ending, completes]
    · simp [ending, incomplete]
  one := by
    rcases render_cases reliable told ready apart printed command with
      ⟨ending, completes, -⟩ | ⟨ending, incomplete, -⟩
    · simp [ending, completes]
    · simp [ending, incomplete]
  finished := by
    intro completes
    rcases render_cases reliable told ready apart printed command with
      ⟨-, -, result, ran, isReady⟩ | ⟨-, incomplete, -⟩
    · exact ⟨result, ran, FileTree.read_of_isFile isReady.isFile⟩
    · exact absurd completes incomplete
  failed := by
    intro incomplete
    rcases render_cases reliable told ready apart printed command with
      ⟨-, completes, -⟩ | ⟨-, -, error, message, isMessage, isReady⟩
    · exact absurd completes incomplete
    · exact ⟨error, message, isMessage, FileTree.read_of_isFile isReady.isFile⟩

end Render

/-- A pixel, and the file in the format PNG that holds it. -/
def pixel : RawImage :=
  ⟨1, 1, [1, 2, 3, 4], rfl⟩

def pixelFile : Bytes :=
  [137, 80, 78, 71, 13, 10, 26, 10, 0, 0, 0, 13, 73, 72, 68, 82, 0, 0, 0, 1, 0, 0, 0, 1, 8, 6, 0, 0,
    0, 31, 21, 196, 137, 0, 0, 0, 13, 73, 68, 65, 84, 120, 156, 99, 96, 100, 98, 102, 1, 0, 0, 25,
    0, 11, 231, 90, 70, 164, 0, 0, 0, 0, 73, 69, 78, 68, 174, 66, 96, 130]

/-- A library that reads and writes the file of the pixel. -/
def pixelLibrary : PictureLibrary where
  decode bytes := if bytes = pixelFile then .ok pixel else .error .unreadable
  resize image _ _ _ := .ok image
  save tree path _ image :=
    if image = pixel then (tree.write path pixelFile).mapError FileError.failure
    else ⟨tree, some (.told "OSError" "no such picture")⟩

theorem isReliable_pixelLibrary : pixelLibrary.IsReliable where
  writes tree path mode image := by
    dsimp only [pixelLibrary]
    split
    · exact .inr ⟨pixelFile, rfl⟩
    · exact .inl rfl
  tells tree path mode image failure failed := by
    dsimp only [pixelLibrary] at failed
    split at failed
    · rcases Option.map_eq_some_iff.mp failed with ⟨error, -, rfl⟩
      exact ⟨error.message, rfl⟩
    · obtain rfl := Option.some.inj failed
      exact ⟨_, rfl⟩

/-- The pixel and an engine that gives back what it gets. -/
def copyingWorld : World where
  files := { nodes := [(["in.png"], .file pixelFile)] }
  environment := []
  engine := fun call => .exited 0 [] [(Invocation.previewFile, call.input)]
  pictures := pixelLibrary
  clock := ⟨"2024-01-01T00:00:00+00:00", 0, "0.00s"⟩
  session := "session"
  entropy := 0

/-- A preset for this pixel. -/
def copyingOptions : RunOptions :=
  { image := some "in.png", vibe := some "blur", target := some "out.png" }

/-- What the run has when it comes to the engine. -/
def copyingStage : Stage where
  settings := {}
  output := Output.ofNames "out.png" none false
  source := .dryRun (.ofSeed 0)
  image := pixel
  vibe := "blur"

/-- Without the engine the same run ends with one. -/
example : (perform { copyingWorld with engine := .missing } copyingOptions).ending.toOption =
    some 1 := by
  decide +kernel

end Run

end Retouch
