import Retouch.Command.Validation
import Retouch.Journal
import Retouch.Source.Basic
import Retouch.Stack

/-!
# Agents

An agent turns a vibe into entries on an edit stack. The name of a preset is answered at once with
the command of the preset. For any other vibe a source is asked, and the agent is busy until its
stream ends; a call that comes in the meantime, for instance from the source itself, is refused and
changes nothing. What the source streamed is validated and cut into entries; if nothing is left of
it, a fixed command takes its place.
-/

namespace Retouch

namespace Agent

/-- What an agent is doing. -/
inductive Phase where
  | idle
  /-- It receives the stream for a vibe, with the text received so far. -/
  | streaming (vibe received : Text)
  deriving DecidableEq

/-- Why a call failed. -/
inductive Problem (Error : Type) where
  | source (failure : Failure)
  | journal (error : Error)

/-- What comes of a call at once. -/
inductive Reply (Error : Type) where
  | refused
  | answered (result : Except (Problem Error) (List Entry))
  | asks (request : Request)

/-- The entries that a call gives at once. -/
def Reply.entries {Error : Type} : Reply Error → List Entry
  | .answered (.ok entries) => entries
  | _ => []

/-- The command that takes the place of one of which nothing is left. -/
def fallback : Text := "-charcoal 5 -colorspace Gray"

end Agent

/-- An agent with its stack and the state of its journal. -/
structure Agent (Log : Type) where
  stack : EditStack := {}
  supply : IdSupply := {}
  log : Log
  phase : Agent.Phase := .idle

namespace Agent

variable {Log Error : Type}

def usePreset (journal : Journal Log Error) (agent : Agent Log) (vibe name command : Text) :
    Except (Problem Error) (List Entry) × Agent Log :=
  match journal.write agent.log (.presetMatched vibe name) with
  | ⟨log, some error⟩ => (.error (.journal error), { agent with log })
  | ⟨log, none⟩ =>
      let (entry, stack, supply) :=
        agent.stack.push agent.supply (Text.trim vibe) command .preset
      (.ok [entry], { agent with stack, supply, log })

def call (journal : Journal Log Error) (agent : Agent Log) (vibe : Text) :
    Reply Error × Agent Log :=
  match agent.phase with
  | .streaming .. => (.refused, agent)
  | .idle =>
      match Preset.find? vibe with
      | some (name, command) =>
          let (result, after) := agent.usePreset journal vibe name command
          (.answered result, after)
      | none => (.asks { vibe }, { agent with phase := .streaming vibe [] })

def receive (agent : Agent Log) (chunk : Text) : Agent Log :=
  match agent.phase with
  | .streaming vibe received => { agent with phase := .streaming vibe (received ++ chunk) }
  | .idle => agent

/-- The command that is used of a validated one. -/
def usedCommand (checked : Validation) : Text :=
  if Text.isAllBlank checked.command then fallback else checked.command

/-- The notes on a generated command and its validation. -/
def notesOn (vibe source generated : Text) (checked : Validation) : List Note :=
  [Note.commandGenerated vibe source generated] ++
    (if checked.stripped.isEmpty then [] else [Note.validationStripped checked.stripped]) ++
    (if Text.isAllBlank checked.command then [Note.validationFallback fallback] else [])

/-- Puts the entries of a generated command on the stack. -/
def useGenerated (journal : Journal Log Error) (agent : Agent Log) (vibe source generated : Text) :
    Except (Problem Error) (List Entry) × Agent Log :=
  let checked := Validation.ofText generated
  match journal.writeAll agent.log (notesOn vibe source generated checked) with
  | ⟨log, some error⟩ => (.error (.journal error), { agent with log })
  | ⟨log, none⟩ =>
      -- the stack changes before the note on it is written, and stays so if that fails
      let (entries, stack, supply) :=
        agent.stack.pushAll agent.supply .generated (Segment.split (usedCommand checked))
      match journal.write log (.entriesPushed (entries.map (·.id))) with
      | ⟨log, none⟩ => (.ok entries, { agent with stack, supply, log })
      | ⟨log, some error⟩ => (.error (.journal error), { agent with stack, supply, log })

/-- Ends the stream of a source, which may have failed; the agent is idle afterwards. -/
def finish (journal : Journal Log Error) (agent : Agent Log) (source : Text)
    (failure : Option Failure) : Except (Problem Error) (List Entry) × Agent Log :=
  match agent.phase with
  | .idle => (.ok [], agent)
  | .streaming vibe received =>
      -- freed before anything that can fail
      let free := { agent with phase := .idle }
      match failure with
      | none => free.useGenerated journal vibe source received
      | some failure =>
          match failure.message with
          -- the message is asked for before the note is written
          | .error asking => (.error (.source asking), free)
          | .ok message =>
              match journal.write agent.log (.generationFailed vibe source message) with
              | ⟨log, none⟩ => (.error (.source failure), { free with log })
              | ⟨log, some error⟩ => (.error (.journal error), { free with log })

/-- Goes through a stream; gives the replies to the calls that come from within it. -/
def follow (journal : Journal Log Error) (agent : Agent Log) :
    List StreamStep → List (Reply Error) × Agent Log
  | [] => ([], agent)
  | .chunk text :: steps => (agent.receive text).follow journal steps
  | .call vibe :: steps =>
      let (reply, after) := agent.call journal vibe
      let (replies, final) := after.follow journal steps
      (reply :: replies, final)

/-- What comes of a vibe. -/
structure Outcome (Log Error : Type) where
  result : Except (Problem Error) (List Entry)
  /-- The replies to the calls from within the stream. -/
  inner : List (Reply Error) := []
  agent : Agent Log
  source : Source

/-- Works on a vibe with a source. -/
def process (journal : Journal Log Error) (agent : Agent Log) (source : Source) (vibe : Text) :
    Outcome Log Error :=
  match agent.call journal vibe with
  | (.refused, after) => { result := .ok [], agent := after, source }
  | (.answered result, after) => { result, agent := after, source }
  | (.asks request, after) =>
      let (stream, next) := source.stream request
      let (inner, received) := after.follow journal stream.steps
      let (result, final) := received.finish journal next.name stream.failure
      { result, inner, agent := final, source := next }

end Agent

end Retouch
