import Retouch.Proofs.Agent.Process

/-!
# Runs of an agent

While an agent receives a stream it refuses every call, and only the text that it has received
changes. However the stream ends, the agent is idle afterwards; so in a run of calls, some of which
may fail, none is refused. A stream that fails leaves nothing on the stack, and a single note with
the message of the failure. A failure that does not tell its message is not noted, and what came of
asking for the message is passed on in its place.
-/

namespace Retouch

def StreamStep.vibe? : StreamStep → Option Text
  | .chunk _ => none
  | .call vibe => some vibe

/-- The vibes with which a stream calls back, in order. -/
def Stream.calls (stream : Stream) : List Text :=
  stream.steps.filterMap StreamStep.vibe?

theorem Source.name_stream (source : Source) (request : Request) :
    (source.stream request).2.name = source.name := by
  cases source <;> rfl

namespace Agent

/-- A vibe, and the source that is asked for it if no preset is. -/
structure Inquiry where
  vibe : Text
  source : Source

def Inquiry.stream (inquiry : Inquiry) : Stream :=
  (inquiry.source.stream { vibe := inquiry.vibe }).1

variable {Log Error : Type}

/-- What comes of an inquiry. -/
def answer (journal : Journal Log Error) (agent : Agent Log) (inquiry : Inquiry) :
    Outcome Log Error :=
  agent.process journal inquiry.source inquiry.vibe

/-- The agent after some inquiries, one after the other. -/
def afterAll (journal : Journal Log Error) (agent : Agent Log) (inquiries : List Inquiry) :
    Agent Log :=
  inquiries.foldl (fun agent inquiry => (agent.answer journal inquiry).agent) agent

/-- The agent after it was called with the vibe of an inquiry and went through a part of the
stream. -/
def during (journal : Journal Log Error) (agent : Agent Log) (inquiry : Inquiry)
    (front : List StreamStep) : Agent Log :=
  ((agent.call journal inquiry.vibe).2.follow journal front).2

/-- The agent takes up an inquiry, lets nothing come between while the source streams, and is idle
in the end. -/
structure Serves (journal : Journal Log Error) (agent : Agent Log) (inquiry : Inquiry) : Prop where
  accepts : (agent.call journal inquiry.vibe).1 ≠ .refused
  /-- Up to any point of the stream the stack and the journal stay as they were. -/
  keeps : Preset.find? inquiry.vibe = none →
    ∀ front back, inquiry.stream.steps = front ++ back →
    (agent.during journal inquiry front).stack = agent.stack ∧
      (agent.during journal inquiry front).supply = agent.supply ∧
        (agent.during journal inquiry front).log = agent.log
  /-- A call from within the stream gives no entries and changes nothing, whatever source it could
  ask. -/
  refuses : Preset.find? inquiry.vibe = none →
    ∀ front vibe back, inquiry.stream.steps = front ++ .call vibe :: back → ∀ source,
      (agent.during journal inquiry front).process journal source vibe =
        { result := .ok [], agent := agent.during journal inquiry front, source }
  inner : (agent.answer journal inquiry).inner =
    if Preset.find? inquiry.vibe = none then inquiry.stream.calls.map fun _ => .refused else []
  /-- If the source fails with a message, then this is noted once and the failure is passed on,
  unless the note fails itself. -/
  fails : Preset.find? inquiry.vibe = none → ∀ failure message,
    inquiry.stream.failure = some failure → failure.message = .ok message →
      let written := journal.write agent.log
        (.generationFailed inquiry.vibe inquiry.source.name message)
      (agent.answer journal inquiry).result =
          .error (written.error.elim (.source failure) .journal) ∧
        (agent.answer journal inquiry).agent = { agent with log := written.state }
  /-- If the message cannot be had, nothing is noted and nothing changes, and what came of asking
  for the message is passed on instead. -/
  breaks : Preset.find? inquiry.vibe = none → ∀ failure asking,
    inquiry.stream.failure = some failure → failure.message = .error asking →
      (agent.answer journal inquiry).result = .error (.source asking) ∧
        (agent.answer journal inquiry).agent = agent
  /-- Afterwards the agent is idle. -/
  frees : (agent.answer journal inquiry).agent.phase = .idle

variable (journal : Journal Log Error)

theorem phase_usePreset (agent : Agent Log) (vibe name command : Text) :
    (agent.usePreset journal vibe name command).2.phase = agent.phase := by
  unfold usePreset
  split <;> rfl

theorem phase_useGenerated (agent : Agent Log) (vibe source generated : Text) :
    (agent.useGenerated journal vibe source generated).2.phase = agent.phase := by
  unfold useGenerated
  dsimp only
  split
  · rfl
  · split <;> rfl

/-- However a stream ends, the agent is idle afterwards. -/
theorem phase_finish (agent : Agent Log) (source : Text) (failure : Option Failure) :
    (agent.finish journal source failure).2.phase = .idle := by
  unfold finish
  split
  · next idle => exact idle
  · cases failure with
    | none => exact phase_useGenerated journal _ _ _ _
    | some failure =>
        dsimp only
        split
        · rfl
        · split <;> rfl

variable {agent : Agent Log}

/-- While a stream goes on, every call that comes from within it is refused. -/
theorem replies_streaming {vibe received : Text} (busy : agent.phase = .streaming vibe received)
    (steps : List StreamStep) :
    (agent.follow journal steps).1 = (steps.filterMap StreamStep.vibe?).map fun _ => .refused := by
  induction steps generalizing agent received with
  | nil => rfl
  | cons step steps ih =>
      cases step with
      | chunk text =>
          have busyAfter : (agent.receive text).phase = .streaming vibe (received ++ text) := by
            simp [receive, busy]
          simp [follow, ih busyAfter, List.filterMap_cons, StreamStep.vibe?]
      | call other => simp [follow, call_streaming busy, ih busy, StreamStep.vibe?]

theorem during_of_unknown (idle : agent.phase = .idle) (inquiry : Inquiry)
    (unknown : Preset.find? inquiry.vibe = none) (front : List StreamStep) :
    agent.during journal inquiry front =
      { agent with phase := .streaming inquiry.vibe (front.flatMap StreamStep.text) } := by
  have busy : ({ agent with phase := .streaming inquiry.vibe [] } : Agent Log).phase =
    .streaming inquiry.vibe [] := rfl
  simp [during, call, idle, unknown, follow_streaming journal busy]

theorem process_streaming {vibe received : Text} (busy : agent.phase = .streaming vibe received)
    (source : Source) (other : Text) :
    agent.process journal source other = { result := .ok [], agent, source } := by
  simp [process, call_streaming busy]

/-- The answer to a vibe that is no preset: the stream is gone through and then ended. -/
theorem answer_of_unknown (idle : agent.phase = .idle) (inquiry : Inquiry)
    (unknown : Preset.find? inquiry.vibe = none) :
    agent.answer journal inquiry =
      let ended := (agent.during journal inquiry inquiry.stream.steps).finish journal
        inquiry.source.name inquiry.stream.failure
      { result := ended.1, inner := inquiry.stream.calls.map fun _ => .refused, agent := ended.2,
        source := (inquiry.source.stream { vibe := inquiry.vibe }).2 } := by
  have busy : ({ agent with phase := .streaming inquiry.vibe [] } : Agent Log).phase =
    .streaming inquiry.vibe [] := rfl
  simp [answer, process, call, idle, unknown, Source.name_stream, replies_streaming journal busy,
    during, Inquiry.stream, Stream.calls]

theorem phase_answer (idle : agent.phase = .idle) (inquiry : Inquiry) :
    (agent.answer journal inquiry).agent.phase = .idle := by
  rcases known : Preset.find? inquiry.vibe with _ | ⟨name, command⟩
  · rw [answer_of_unknown journal idle inquiry known]
    exact phase_finish journal _ _ _
  · simp [answer, process, call, idle, known, phase_usePreset]

/-- An idle agent serves every inquiry. -/
theorem serves_of_idle (idle : agent.phase = .idle) (inquiry : Inquiry) :
    agent.Serves journal inquiry where
  accepts := by
    unfold call
    rw [idle]
    cases Preset.find? inquiry.vibe <;> simp
  keeps unknown front _ _ := by simp [during_of_unknown journal idle inquiry unknown]
  refuses unknown front vibe _ _ source := by
    rw [during_of_unknown journal idle inquiry unknown]
    exact process_streaming journal rfl source vibe
  inner := by
    rcases known : Preset.find? inquiry.vibe with _ | ⟨name, command⟩
    · simp [answer_of_unknown journal idle inquiry known]
    · simp [answer, process, call, idle, known]
  fails unknown failure message fails tells := by
    rw [answer_of_unknown journal idle inquiry unknown,
      during_of_unknown journal idle inquiry unknown, fails]
    dsimp only [finish]
    rw [tells]
    dsimp only
    rcases journal.write agent.log
      (.generationFailed inquiry.vibe inquiry.source.name message) with ⟨log, _ | error⟩
    · simp [← idle]
    · simp [← idle]
  breaks unknown failure asking fails tells := by
    rw [answer_of_unknown journal idle inquiry unknown,
      during_of_unknown journal idle inquiry unknown, fails]
    dsimp only [finish]
    rw [tells]
    simp [← idle]
  frees := phase_answer journal idle inquiry

theorem phase_afterAll (idle : agent.phase = .idle) (inquiries : List Inquiry) :
    (agent.afterAll journal inquiries).phase = .idle := by
  induction inquiries generalizing agent with
  | nil => exact idle
  | cons inquiry inquiries ih => exact ih (phase_answer journal idle inquiry)

/-- A source that asks for a preset while it streams, and then fails, twice. -/
example :
    let failing : Inquiry := ⟨"dream", .scripted { stream :=
      { steps := [.chunk "-blur", .call "Blur", .chunk " 3"]
        failure := some (.told "RuntimeError" "gone") } }⟩
    let agent : Agent (List Note) := afterAll (.inMemory Empty) { log := [] } [failing, failing]
    agent.stack.entries = [] ∧
      agent.log.map (·.kind) = ["generation_failed", "generation_failed"] := by
  decide +kernel

end Agent

end Retouch
