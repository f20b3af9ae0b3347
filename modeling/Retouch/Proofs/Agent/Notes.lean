import Retouch.Proofs.Agent.Run
import Retouch.Proofs.Invocation.Entries

/-!
# What an agent notes

An agent that answers a vibe with entries has written all of its notes, and none of them is about
the engine. The stack it leaves always has a command.
-/

namespace Retouch

/-- Whether a note tells how the engine ended. -/
def Note.IsOfEngine (note : Note) : Prop :=
  note.kind = "engine_finished" ∨ note.kind = "engine_failed"

theorem Journal.writeAll_append {State Error : Type} (journal : Journal State Error) (state : State)
    (front back : List Note) : journal.writeAll state (front ++ back) =
      (journal.writeAll state front).andThen fun after => journal.writeAll after back := by
  induction front generalizing state with
  | nil => rfl
  | cons note front ih =>
      rw [List.cons_append, writeAll, writeAll]
      unfold Progress.andThen
      split
      · exact ih _
      · next failed => simp [failed]

namespace Agent

variable {Log Error : Type} {journal : Journal Log Error} {agent after : Agent Log}
    {entries : List Entry}

def noteKinds : List Text :=
  ["preset_matched", "command_generated", "validation_stripped", "validation_fallback",
    "entries_pushed"]

theorem not_isOfEngine {note : Note} (isKind : note.kind ∈ noteKinds) : ¬note.IsOfEngine := by
  have others : ∀ kind ∈ noteKinds, kind ≠ "engine_finished" ∧
      kind ≠ "engine_failed" := by decide
  rcases others note.kind isKind with ⟨notFinished, notFailed⟩
  rintro (finished | failed)
  · exact notFinished finished
  · exact notFailed failed

/-- What an agent has done when it gave entries: it wrote notes and pushed parts of a command on its
stack. -/
structure HasWorked (journal : Journal Log Error) (agent after : Agent Log) : Prop where
  notes : ∃ notes : List Note, notes ≠ [] ∧ (∀ note ∈ notes, note.kind ∈ noteKinds) ∧
    journal.writeAll agent.log notes = ⟨after.log, none⟩
  parts : ∃ provenance parts, after.stack =
    (agent.stack.pushAll agent.supply provenance parts).2.1

theorem hasWorked_usePreset {vibe name command : Text}
    (used : agent.usePreset journal vibe name command = (.ok entries, after)) :
    HasWorked journal agent after := by
  unfold usePreset at used
  split at used
  · simp at used
  · next log written =>
      cases used
      constructor
      · refine ⟨[.presetMatched vibe name], by simp, ?_, ?_⟩
        · intro note member
          rw [List.mem_singleton.mp member]
          exact List.mem_of_getElem? (show noteKinds[0]? = _ from rfl)
        · rw [Journal.writeAll, written]
          rfl
      · exact ⟨.preset, [⟨Text.trim vibe, command⟩], rfl⟩

theorem kind_of_mem_notesOn {vibe source generated : Text} {checked : Validation} {note : Note}
    (member : note ∈ notesOn vibe source generated checked) : note.kind ∈ noteKinds := by
  unfold notesOn at member
  simp only [List.mem_append, List.mem_singleton] at member
  rcases member with (rfl | isStripped) | isFallback
  · exact List.mem_of_getElem? (show noteKinds[1]? = _ from rfl)
  · split at isStripped
    · simp at isStripped
    · rw [List.mem_singleton.mp isStripped]
      exact List.mem_of_getElem? (show noteKinds[2]? = _ from rfl)
  · split at isFallback
    · rw [List.mem_singleton.mp isFallback]
      exact List.mem_of_getElem? (show noteKinds[3]? = _ from rfl)
    · simp at isFallback

theorem hasWorked_useGenerated {vibe source generated : Text}
    (used : agent.useGenerated journal vibe source generated = (.ok entries, after)) :
    HasWorked journal agent after := by
  unfold useGenerated at used
  dsimp only at used
  split at used
  · simp at used
  · next log written =>
      split at used
      · next final counted =>
          cases used
          let ids := (agent.stack.pushAll agent.supply .generated
            (Segment.split (usedCommand (Validation.ofText generated)))).1.map (·.id)
          refine ⟨⟨notesOn vibe source generated (Validation.ofText generated) ++
            [.entriesPushed ids], by simp, ?_, ?_⟩, ⟨.generated, _, rfl⟩⟩
          · intro note member
            rcases List.mem_append.mp member with isOn | isLast
            · exact kind_of_mem_notesOn isOn
            · rw [List.mem_singleton.mp isLast]
              exact List.mem_of_getElem? (show noteKinds[4]? = _ from rfl)
          · rw [Journal.writeAll_append, written]
            change journal.writeAll log [.entriesPushed ids] = _
            rw [Journal.writeAll, counted]
            rfl
      · simp at used

/-- An idle agent that answers a vibe with entries has worked on it. -/
theorem hasWorked_process (idle : agent.phase = .idle) {source : Source} {vibe : Text}
    (answered : (agent.process journal source vibe).result = .ok entries) :
    HasWorked journal agent (agent.process journal source vibe).agent := by
  rcases known : Preset.find? vibe with _ | ⟨name, command⟩
  · have unfolded := answer_of_unknown journal idle ⟨vibe, source⟩ known
    rw [during_of_unknown journal idle ⟨vibe, source⟩ known] at unfolded
    change agent.process journal source vibe = _ at unfolded
    have free : ({ agent with phase := .idle } : Agent Log) = agent := by rw [← idle]
    rw [unfolded] at answered ⊢
    dsimp only [finish] at answered ⊢
    split at answered
    · rw [free] at answered ⊢
      exact hasWorked_useGenerated (Prod.ext answered rfl)
    · split at answered
      · simp at answered
      · split at answered <;> simp at answered
  · have unfolded : agent.process journal source vibe =
        { result := (agent.usePreset journal vibe name command).1,
          agent := (agent.usePreset journal vibe name command).2, source } := by
      simp [process, call, idle, known]
    rw [unfolded] at answered ⊢
    exact hasWorked_usePreset (Prod.ext answered rfl)

/-- The stack of a new agent that has worked has a command. -/
theorem HasWorked.exists_command (worked : HasWorked journal agent after)
    (isNew : agent.stack = {}) :
    ∃ command, after.stack.command = .ok command := by
  rcases worked.parts with ⟨provenance, parts, pushed⟩
  rcases exists_forall₂ fun (part : LabelledCommand) (_ : part ∈ parts) =>
      Entry.exists_renderCommand part.command with ⟨texts, rendered⟩
  rw [isNew] at pushed
  rw [pushed]
  exact ⟨_, EditStack.command_ofParts agent.supply provenance rendered⟩

end Agent

end Retouch
