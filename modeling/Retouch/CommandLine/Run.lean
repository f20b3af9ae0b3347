import Retouch.Agent
import Retouch.CommandLine.Command
import Retouch.Dispatcher
import Retouch.Environment.Dotenv
import Retouch.EventLog
import Retouch.Raster.PictureFile
import Retouch.Settings

/-!
# Runs

A run applies a vibe to an image: the agent puts entries on a stack, the engine works on the command
of the stack, and the output is kept. A run that comes as far as the engine ends well exactly if the
engine gave a result and the output and the event of it could be kept; else the last error is
printed.
-/

namespace Retouch

structure Clock where
  stamp : Text
  /-- How many seconds the engine takes. -/
  elapsed : Number
  /-- How long the run takes, as it is printed. -/
  shownElapsed : Text

/-- What a program sees of the outside. -/
structure World where
  files : FileTree
  environment : Environment
  engine : EngineProgram
  pictures : PictureLibrary
  clock : Clock
  session : Text
  /-- The seed that is used if none is set. -/
  entropy : Nat

/-- What the value of an option is needed for. -/
inductive Purpose where
  | size
  | path
  | name
  deriving DecidableEq

def Purpose.message : Purpose → Text
  | .size => "not enough values to unpack (expected 2, got 0)"
  | .path => "expected str, bytes or os.PathLike object, not list"
  | .name => "unhashable type: 'list'"

/-- Why a program broke off. -/
inductive Breakdown where
  | variables (error : Dotenv.LoadError)
  | valueless (purpose : Purpose)
  | seed (error : IntegerError)
  | image (error : PictureFile.LoadError)
  | range (error : RangeError)
  | other (failure : Failure)

def Breakdown.message : Breakdown → Text
  | .variables error => error.message
  | .valueless purpose => purpose.message
  | .seed error => error.message
  | .image error => error.message
  | .range error => error.message
  | .other failure => failure.shown

/-- How a program ends: with an exit code or by breaking off. -/
abbrev Ending := Except Breakdown Int

structure Performance where
  printed : Text := []
  ending : Ending
  files : FileTree
  calls : List EngineCall := []

def printedLine (text : Text) : Text :=
  text ++ ['\n']

namespace Run

/-- The name of the event file beside an output. -/
def eventsName : Text := "events.jsonl"

structure Output where
  target : Path
  events : Path
  isExport : Bool := false
  deriving DecidableEq

/-- The output to a file; without a file for the events it stands beside it. -/
def Output.ofNames (target : Text) (events : Option Text) (isExport : Bool) : Output where
  target := Path.ofText target
  events :=
    match events with
    | some (c :: name) => Path.ofText (c :: name)
    | _ => (Path.ofText target).parent.child eventsName
  isExport := isExport

def journalOf (world : World) (output : Output) : Journal FileTree FileError :=
  EventLog.journal ⟨output.events, world.session⟩ world.clock.stamp

/-- Keeps the output of the engine: as it is for export, else as a picture file. -/
def keep (pictures : PictureLibrary) (files : FileTree) (target : Path) (result : EngineResult) :
    Progress FileTree Failure :=
  if result.isExport then
    ((files.ensureDirectories target.parent).andThen fun ready =>
      ready.write target result.data).mapError FileError.failure
  else
    match RawImage.ofBytes result.width result.height result.data with
    | .error mismatch => ⟨files, some (.told "ValueError" mismatch.message)⟩
    | .ok image => PictureFile.save pictures files target image

structure Work where
  files : FileTree
  errors : List EngineError := []

/-- Writes a note; the failure of it is the reaction of a listener. -/
def note (journal : Journal FileTree FileError) (work : Work) (entry : Note) :
    Dispatcher.Reaction Job × Work :=
  let written := journal.write work.files entry
  ({ failure := written.error.map FileError.failure }, { work with files := written.state })

def onDone (world : World) (output : Output) (_ : Job) (result : EngineResult) (work : Work) :
    Dispatcher.Reaction Job × Work :=
  match keep world.pictures work.files output.target result with
  | ⟨files, some failure⟩ => ({ failure := some failure }, { work with files })
  | ⟨files, none⟩ =>
      note (journalOf world output) { work with files }
        (.engineFinished result.arguments world.clock.elapsed output.target.text)

def onError (world : World) (output : Output) (_ : Job) (error : EngineError) (work : Work) :
    Dispatcher.Reaction Job × Work :=
  let remembered := { work with errors := work.errors ++ [error] }
  match error.message with
  | .error asking => ({ failure := some asking }, remembered)
  | .ok message =>
      note (journalOf world output) remembered (.engineFailed message error.output)

def listeners (world : World) (output : Output) :
    Dispatcher.Listeners Job EngineResult Work where
  onDone := some (onDone world output)
  onError := some (onError world output)

/-- Dispatches a job; gives the files and the errors after it. -/
def dispatch (world : World) (output : Output) (runner : Runner) (files : FileTree)
    (job : Job) : Work :=
  let (_, dispatcher) := Dispatcher.submit {} { job }
  let ending : Dispatcher.Ending EngineResult :=
    match runner.run world.engine job with
    | .ok result => .returned result
    | .error problem => .failed problem
  match dispatcher.finish? (listeners world output) { files } ending with
  | some turn => turn.state
  | none => { files }

def entryLine (entry : Entry) : Text :=
  printedLine ("+ [" ++ entry.provenance.name ++ "] " ++ entry.label ++ ": " ++ entry.command)

def errorLines (message output : Text) : Text :=
  printedLine ("Engine failed: " ++ message) ++
    if output.isEmpty then [] else printedLine (Text.trim output)

/-- What comes of the errors of a job: the last one is printed, and without one the output. -/
def conclude (world : World) (output : Output) (work : Work) : Except Failure (Text × Int) :=
  match work.errors.getLast? with
  | some error => error.message.map fun message => (errorLines message error.output, 1)
  | none =>
      .ok (printedLine ("Wrote " ++ output.target.text ++ " in " ++ world.clock.shownElapsed), 0)

def render (world : World) (output : Output) (settings : Settings) (image : RawImage)
    (files : FileTree) (printed command : Text) : Performance :=
  let job : Job := { command, image, isExport := output.isExport }
  let runner : Runner := { binary := settings.binary }
  let work := dispatch world output runner files job
  let announced := printed ++ printedLine ("Rendering: " ++ command)
  let conclusion := conclude world output work
  { printed := announced ++ (conclusion.toOption.elim [] (·.1))
    ending := (conclusion.map (·.2)).mapError .other
    files := work.files
    calls := [runner.callOf job] }

/-- The message of a problem of the agent, or what comes of asking for it. -/
def problemMessage : Agent.Problem FileError → Except Failure Text
  | .source failure => failure.message
  | .journal error => .ok error.message

/-- What comes of a run for which no command can be had, with a message that says why. -/
def withoutCommand (files : FileTree) (message : Text) : Performance :=
  { printed := printedLine ("Generation failed: " ++ message)
    ending := .ok 1
    files }

/-- Applies a vibe to an image. -/
def withVibe (world : World) (output : Output) (settings : Settings) (source : Source)
    (image : RawImage) (vibe : Text) : Performance :=
  let idle : Agent FileTree := { log := world.files }
  let outcome := idle.process (journalOf world output) source vibe
  let files := outcome.agent.log
  match outcome.result with
  | .error problem =>
      match problemMessage problem with
      | .ok message => withoutCommand files message
      | .error asking => { ending := .error (.other asking), files }
  | .ok entries =>
      let printed := entries.flatMap entryLine
      match outcome.agent.stack.command with
      | .error error => { printed, ending := .error (.range error), files }
      | .ok command => render world output settings image files printed command

/-- The message for a run without a vibe. -/
def noVibe : Text := "'list' object has no attribute 'strip'"

def withoutSource (world : World) (name : Text) : Performance :=
  { printed := printedLine ("Unknown source: " ++ name), ending := .ok 1, files := world.files }

/-- The value of an option, or the breakdown of a run without it. -/
def needed (purpose : Purpose) (value : Option Text) : Except Breakdown Text :=
  match value with
  | some value => .ok value
  | none => .error (.valueless purpose)

/-- The seed for the built-in source. -/
def seedOf (world : World) (settings : Settings) : Nat :=
  match settings.seed with
  | some seed => seed.natAbs
  | none => world.entropy

/-- Performs a run, or breaks off before anything is done. The options are looked at one after the
other, the source before the image and the image before the vibe. -/
def attempt (world : World) (options : RunOptions) : Except Breakdown Performance := do
  let settings ← (Settings.ofEnvironment world.environment).mapError .seed
  let target ← needed .path options.target
  let output := Output.ofNames target options.events options.isExport
  let name ← needed .name options.source
  match (SourceRegistry.default (seedOf world settings)).get? name with
  | none => return withoutSource world name
  | some source =>
      let path ← needed .path options.image
      let image ← (PictureFile.load world.pictures world.files (Path.ofText path)
        (.int settings.maxDimension) settings.keepsEdges).mapError .image
      match options.vibe with
      | none => return withoutCommand world.files noVibe
      | some vibe => return withVibe world output settings source image vibe

def perform (world : World) (options : RunOptions) : Performance :=
  match attempt world options with
  | .ok performance => performance
  | .error breakdown => { ending := .error breakdown, files := world.files }

end Run

end Retouch
