import Retouch.Failure
import Retouch.Preset
import Retouch.Source.DryRun
import Retouch.Text.Order

/-!
# Sources of commands

A source streams the text of a command in chunks for a request. While it streams it may call back,
and its stream may end in a failure. The built-in source needs no network: it draws one of the
finished effects. A scripted source streams the same for every request and keeps the requests.
-/

namespace Retouch

structure Request where
  vibe : Text
  systemPrompt : Text := Preset.systemPrompt
  maxTokens : Nat := Preset.maxTokens
  /-- How freely the source chooses. -/
  temperature : Number := Preset.temperature
  maxOperations : Int := Preset.maxOperations
  deriving DecidableEq

/-- What happens while a source streams. -/
inductive StreamStep where
  | chunk (text : Text)
  /-- The source calls back with a vibe of its own. -/
  | call (vibe : Text)
  deriving DecidableEq

structure Stream where
  steps : List StreamStep
  failure : Option Failure := none
  deriving DecidableEq

/-- A source that streams the same for every request. -/
structure Script where
  name : Text := "scripted"
  stream : Stream
  requests : List Request := []

inductive Source where
  | dryRun (state : DryRun)
  | scripted (script : Script)

namespace Source

def name : Source → Text
  | .dryRun _ => DryRun.name
  | .scripted script => script.name

/-- What a source streams for a request, and the source after it. -/
def stream (source : Source) (request : Request) : Stream × Source :=
  match source with
  | .dryRun state =>
      let (chunks, after) := state.stream request.maxOperations
      ({ steps := chunks.map .chunk }, .dryRun after)
  | .scripted script =>
      (script.stream, .scripted { script with requests := script.requests ++ [request] })

end Source

/-- Values by the names of their sources; of two with the same name the later counts. -/
abbrev SourceRegistry (Value : Type) := Record Value

namespace SourceRegistry

def ofList {Value : Type} (values : List (Text × Value)) : SourceRegistry Value :=
  Record.ofPairs values

def names {Value : Type} (registry : SourceRegistry Value) : List Text :=
  Text.sort (registry.map (·.1))

/-- The registry of the built-in source. -/
def default (seed : Nat) : SourceRegistry Source :=
  let source := Source.dryRun (.ofSeed seed)
  ofList [(source.name, source)]

end SourceRegistry

end Retouch
