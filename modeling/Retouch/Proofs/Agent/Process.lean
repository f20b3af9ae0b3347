import Retouch.Agent
import Retouch.Proofs.Command.Idle

/-!
# What an agent makes of a vibe

An agent that is not busy answers every vibe with entries, provided that its source and its journal
do not fail: the one of a preset, those of the streamed command, or those of the fallback. The
fallback is chosen when validation leaves nothing of a command; a command of which validation leaves
idle tokens only is split into no entries, and then there are none.
-/

namespace Retouch

namespace EditStack

theorem length_pushAll (stack : EditStack) (supply : IdSupply) (provenance : Provenance)
    (parts : List LabelledCommand) : (stack.pushAll supply provenance parts).1.length =
      parts.length := by
  induction parts generalizing stack supply with
  | nil => rfl
  | cons part parts ih => simp [pushAll, ih]

end EditStack

def StreamStep.text : StreamStep → Text
  | .chunk text => text
  | .call _ => []

/-- The text that a stream gives in all. -/
def Stream.text (stream : Stream) : Text :=
  stream.steps.flatMap StreamStep.text

namespace Journal

/-- A journal that can always be written. -/
def NeverFails {State Error : Type} (journal : Journal State Error) : Prop :=
  ∀ state note, (journal.write state note).error = none

variable {State Error : Type} {journal : Journal State Error}

theorem NeverFails.exists_write (neverFails : journal.NeverFails) (state : State) (note : Note) :
    ∃ after, journal.write state note = ⟨after, none⟩ := by
  refine ⟨(journal.write state note).state, ?_⟩
  rw [← neverFails state note]

theorem NeverFails.exists_writeAll (neverFails : journal.NeverFails) (state : State)
    (notes : List Note) :
    ∃ after, journal.writeAll state notes = ⟨after, none⟩ := by
  induction notes generalizing state with
  | nil => exact ⟨state, rfl⟩
  | cons note notes ih =>
      rcases neverFails.exists_write state note with ⟨after, written⟩
      simpa [writeAll, written, Progress.andThen] using ih after

theorem neverFails_inMemory (Error : Type) : (inMemory Error).NeverFails :=
  fun _ _ => rfl

end Journal

namespace Agent

variable {Log Error : Type} {journal : Journal Log Error} {agent : Agent Log}

/-- A busy agent refuses a call and stays as it is. -/
theorem call_streaming {vibe received : Text} (busy : agent.phase = .streaming vibe received)
    (other : Text) :
    agent.call journal other = (.refused, agent) := by
  simp [call, busy]

variable (journal) in
/-- While a stream goes on its chunks add up, whatever calls come from within it. -/
theorem follow_streaming {vibe received : Text} (busy : agent.phase = .streaming vibe received)
    (steps : List StreamStep) :
    (agent.follow journal steps).2 =
      { agent with phase := .streaming vibe (received ++ steps.flatMap StreamStep.text) } := by
  induction steps generalizing agent received with
  | nil => simp [follow, ← busy]
  | cons step steps ih =>
      cases step with
      | chunk text =>
          have busyAfter : (agent.receive text).phase = .streaming vibe (received ++ text) := by
            simp [receive, busy]
          rw [follow, ih busyAfter]
          simp [receive, busy, StreamStep.text]
      | call other =>
          rw [follow, call_streaming busy]
          simp only [ih busy]
          simp [StreamStep.text]

theorem split_fallback_ne_nil : Segment.split fallback ≠ [] := by
  decide +kernel

theorem split_usedCommand_eq_nil_iff (checked : Validation) :
    Segment.split (usedCommand checked) = [] ↔
    ¬Text.isAllBlank checked.command ∧ Segment.IsIdle (Token.ofText checked.command) := by
  unfold usedCommand
  split
  · next blank => simp [blank, split_fallback_ne_nil]
  · next notBlank => simp [notBlank, Segment.split_eq_nil_iff]

/-- A generated command is answered by the entries of the command that is used of it. -/
theorem exists_useGenerated (neverFails : journal.NeverFails) (agent : Agent Log)
    (vibe source generated : Text) :
    ∃ entries, (agent.useGenerated journal vibe source generated).1 = .ok entries ∧
      entries.length = (Segment.split (usedCommand (Validation.ofText generated))).length := by
  rcases neverFails.exists_writeAll agent.log
    (notesOn vibe source generated (Validation.ofText generated)) with ⟨log, noted⟩
  have pushed := EditStack.length_pushAll agent.stack agent.supply .generated
    (Segment.split (usedCommand (Validation.ofText generated)))
  rcases isPushed : agent.stack.pushAll agent.supply .generated
    (Segment.split (usedCommand (Validation.ofText generated))) with ⟨entries, stack, supply⟩
  rw [isPushed] at pushed
  rcases neverFails.exists_write log (.entriesPushed (entries.map (·.id))) with
    ⟨final, counted⟩
  exact ⟨entries, by simp [useGenerated, noted, isPushed, counted], pushed⟩

theorem exists_usePreset (neverFails : journal.NeverFails) (agent : Agent Log)
    (vibe name command : Text) :
    ∃ entry, (agent.usePreset journal vibe name command).1 = .ok [entry] := by
  rcases neverFails.exists_write agent.log (.presetMatched vibe name) with ⟨log, noted⟩
  rcases isPushed : agent.stack.push agent.supply (Text.trim vibe) command .preset with
    ⟨entry, stack, supply⟩
  exact ⟨entry, by simp [usePreset, noted, isPushed]⟩

/-- An idle agent makes of a vibe the entries of the command that is used of the streamed text. -/
theorem exists_process (neverFails : journal.NeverFails) (agent : Agent Log) (source : Source)
    (vibe : Text) (idle : agent.phase = .idle) (unknown : Preset.find? vibe = none)
    (streams : (source.stream { vibe }).1.failure = none) :
    ∃ entries, (agent.process journal source vibe).result = .ok entries ∧ entries.length =
      (Segment.split (usedCommand (Validation.ofText (source.stream { vibe }).1.text))).length := by
  rcases isStream : source.stream { vibe } with ⟨stream, next⟩
  have streams : stream.failure = none := by simpa [isStream] using streams
  have busy : ({ agent with phase := .streaming vibe [] } : Agent Log).phase =
      .streaming vibe [] := rfl
  have followed := follow_streaming journal busy stream.steps
  rcases exists_useGenerated neverFails { agent with phase := .idle } vibe next.name
      stream.text with
    ⟨entries, answered, count⟩
  refine ⟨entries, ?_, count⟩
  simpa [process, call, idle, unknown, isStream, followed, finish, streams, Stream.text]
    using answered

/-- If neither the source nor the journal fails, an agent answers every vibe. It gives no entries
only if it is busy, or if validation leaves of the streamed command idle tokens and nothing else. -/
theorem process_answers (neverFails : journal.NeverFails) (agent : Agent Log) (source : Source)
    (vibe : Text) (streams : (source.stream { vibe }).1.failure = none) :
    ∃ entries, (agent.process journal source vibe).result = .ok entries ∧
      (entries = [] ↔ agent.phase ≠ .idle ∨ Preset.find? vibe = none ∧
        ¬Text.isAllBlank (Validation.ofText (source.stream { vibe }).1.text).command ∧
          Segment.IsIdle
            (Token.ofText (Validation.ofText (source.stream { vibe }).1.text).command)) := by
  rcases phase : agent.phase with _ | ⟨current, received⟩
  · rcases known : Preset.find? vibe with _ | ⟨name, command⟩
    · rcases exists_process neverFails agent source vibe phase known streams with
        ⟨entries, answered, count⟩
      refine ⟨entries, answered, ?_⟩
      rw [← List.length_eq_zero_iff, count, List.length_eq_zero_iff, split_usedCommand_eq_nil_iff]
      simp
    · rcases exists_usePreset neverFails agent vibe name command with ⟨entry, answered⟩
      refine ⟨[entry], ?_, by simp⟩
      simp [process, call, phase, known, answered]
  · refine ⟨[], ?_, by simp⟩
    simp [process, call, phase]

theorem process_answers_blur : ∃ entries,
    (process (.inMemory Empty) { log := [] }
        (.scripted { stream := { steps := [.chunk "-blur 3"] } })
      "dream").result = .ok entries ∧ entries ≠ [] := by
  rcases process_answers (Journal.neverFails_inMemory Empty) { log := [] }
    (.scripted { stream := { steps := [.chunk "-blur 3"] } }) "dream" rfl with
      ⟨entries, answered, empty⟩
  refine ⟨entries, answered, ?_⟩
  rw [Ne, empty, ← Segment.split_eq_nil_iff]
  decide +kernel

/-- Validation keeps the safety pair, and splitting skips it: an idle agent gives no entries,
although neither its source nor its journal fails. -/
theorem process_safety_pair :
    (process (.inMemory Empty) { log := [] }
        (.scripted { stream := { steps := [.chunk "-alpha opaque"] } })
      "dream").result = .ok [] := by
  have skipped : Segment.split (usedCommand (Validation.ofText "-alpha opaque")) = [] := by
    decide +kernel
  have unknown : Preset.find? "dream" = none := by decide +kernel
  rcases exists_process (Journal.neverFails_inMemory Empty) { log := [] }
    (.scripted { stream := { steps := [.chunk "-alpha opaque"] } }) "dream" rfl unknown rfl with
    ⟨entries, answered, count⟩
  have none : entries = [] :=
    List.length_eq_zero_iff.mp (count.trans (congrArg List.length skipped))
  rw [answered, none]

end Agent

end Retouch
