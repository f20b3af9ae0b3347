import Retouch.Failure
import Retouch.Invocation
import Retouch.Number.Basic
import Retouch.Raster.RawImage
import Retouch.Record

/-!
# The engine

The engine is a separate program. For each job it is started in a directory of its own with the
input image in a file, and it writes the output to another file. A job gives a result if the program
ends with code zero and leaves an output file, which for a preview must have as many bytes as the
input image; else there is an engine error. What the program writes to its error stream goes along
with the error and is not looked into.
-/

namespace Retouch

/-- What the engine is to do. -/
structure Job where
  command : Text
  image : RawImage
  /-- Whether a file for export is made, and not a preview. -/
  isExport : Bool := false
  deriving DecidableEq

/-- What the engine made. -/
structure EngineResult where
  data : Bytes
  width : Int
  height : Int
  isExport : Bool
  arguments : List Text
  deriving DecidableEq

/-- Why a job gave no result. -/
inductive EngineError where
  | notFound (binary : Text)
  /-- The program took longer than the limit in seconds. -/
  | timedOut (limit : Number)
  | exited (code : Int) (output : Text)
  | noOutput (output : Text)
  | wrongSize (actual : Nat) (width height : Int) (output : Text)
  /-- A failure of another kind, by its message. -/
  | wrapped (kind message : Text)
  /-- An engine error that somebody else made. -/
  | reported (failure : Failure)
  deriving DecidableEq

namespace EngineError

def kind : EngineError → Text
  | .reported failure => failure.kind
  | _ => "EngineError"

/-- The message, or what comes of asking for it. -/
def message : EngineError → Except Failure Text
  | .notFound binary => .ok ("Engine binary not found: " ++ binary)
  | .timedOut limit => .ok ("Engine timed out after " ++ limit.text ++ "s")
  | .exited code _ => .ok ("Engine exited with code " ++ Decimal.integerText code)
  | .noOutput _ => .ok "Engine produced no output"
  | .wrongSize actual width height _ =>
      .ok ("Unexpected output size " ++ Decimal.naturalText actual ++ " for " ++
        Decimal.integerText width ++ "x" ++ Decimal.integerText height ++ " RGBA")
  | .wrapped _ message => .ok message
  | .reported failure => failure.message

/-- What the program wrote to its error stream. -/
def output : EngineError → Text
  | .exited _ output => output
  | .noOutput output => output
  | .wrongSize _ _ _ output => output
  | _ => []

/-- A failure as an engine error. The message is asked for, which may fail. -/
def ofFailure (failure : Failure) : Except Failure EngineError :=
  failure.message.map (.wrapped failure.kind)

theorem ofFailure_of_message {failure : Failure} {message : Text}
    (told : failure.message = .ok message) :
    ofFailure failure = .ok (.wrapped failure.kind message) := by
  rw [ofFailure, told]
  rfl

end EngineError

inductive JobProblem where
  | engine (error : EngineError)
  | other (failure : Failure)
  deriving DecidableEq

namespace JobProblem

def kind : JobProblem → Text
  | .engine error => error.kind
  | .other failure => failure.kind

/-- The message, or what comes of asking for it. -/
def message : JobProblem → Except Failure Text
  | .engine error => error.message
  | .other failure => failure.message

def IsTold (problem : JobProblem) : Prop :=
  ∃ message, problem.message = .ok message

/-- The engine error as which a problem of a job is reported: an engine error as it is, without a
question for its message. -/
def error : JobProblem → Except Failure EngineError
  | .engine error => .ok error
  | .other failure => EngineError.ofFailure failure

/-- The engine error as which a problem of a listener is reported, whatever its kind. -/
def rewrapped (problem : JobProblem) : Except Failure EngineError :=
  problem.message.map (.wrapped problem.kind)

variable {problem : JobProblem}

/-- A problem that tells its message is reported as an engine error with a message. -/
theorem IsTold.exists_error (told : problem.IsTold) :
    ∃ error message, problem.error = .ok error ∧ error.message = .ok message := by
  rcases told with ⟨message, isMessage⟩
  cases problem with
  | engine error => exact ⟨error, message, rfl, isMessage⟩
  | other failure =>
      exact ⟨.wrapped failure.kind message, message,
        EngineError.ofFailure_of_message isMessage, rfl⟩

theorem IsTold.exists_rewrapped (told : problem.IsTold) :
    ∃ error, problem.rewrapped = .ok error := by
  rcases told with ⟨message, isMessage⟩
  refine ⟨.wrapped problem.kind message, ?_⟩
  rw [rewrapped, isMessage]
  rfl

end JobProblem

structure EngineCall where
  /-- The program and its arguments. -/
  arguments : List Text
  input : Bytes
  deriving DecidableEq

inductive EngineEnd where
  | notFound
  | timedOut
  /-- It cannot be run for another reason. -/
  | problem (problem : JobProblem)
  /-- It ends with a code, what it wrote to its error stream, and the files that it left. -/
  | exited (code : Int) (output : Bytes) (files : Record Bytes)

abbrev EngineProgram := EngineCall → EngineEnd

def EngineProgram.missing : EngineProgram :=
  fun _ => .notFound

structure Runner where
  binary : Text := Invocation.program
  /-- The time limit in seconds. -/
  timeLimit : Number := .ofDecimal false 60 0

namespace Runner

def argumentsOf (job : Job) : List Text :=
  Invocation.build job.command job.image.width job.image.height job.isExport

def callOf (runner : Runner) (job : Job) : EngineCall :=
  ⟨runner.binary :: (argumentsOf job).drop 1, job.image.data⟩

def outputFile (job : Job) : Text :=
  if job.isExport then Invocation.exportFile else Invocation.previewFile

/-- What comes of a job whose program ended with code zero. -/
def resultOf (job : Job) (output : Text) (files : Record Bytes) :
    Except JobProblem EngineResult :=
  match files.get? (outputFile job) with
  | none => .error (.engine (.noOutput output))
  | some data =>
      if !job.isExport ∧ (data.length : Int) ≠ job.image.width * job.image.height * 4 then
        .error (.engine (.wrongSize data.length job.image.width job.image.height output))
      else
        .ok ⟨data, job.image.width, job.image.height, job.isExport, argumentsOf job⟩

/-- What comes of a job, given how its program ended. -/
def judge (runner : Runner) (job : Job) : EngineEnd → Except JobProblem EngineResult
  | .notFound => .error (.engine (.notFound runner.binary))
  | .timedOut => .error (.engine (.timedOut runner.timeLimit))
  | .problem problem => .error problem
  | .exited code output files =>
      let shown := Utf8.decodeTolerant output
      if code = 0 then resultOf job shown files else .error (.engine (.exited code shown))

def run (runner : Runner) (program : EngineProgram) (job : Job) : Except JobProblem EngineResult :=
  runner.judge job (program (runner.callOf job))

end Runner

end Retouch
